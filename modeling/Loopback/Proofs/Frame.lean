import Loopback.Link.Machine

/-!
# What an operation on a link leaves alone

A link is changed one part at a time: an endpoint, a close state, a token, the messages, the log.
The lemmas here say of each such change what the other parts read afterwards. `Call.hold?` names
the one endpoint that the next step of a call works on, and what the step does there;
`Link.endpoint_step` says that every step does just that to the endpoints. `Call.closing?` and
`Link.closing_step` do the same for close states.
-/

namespace Loopback

namespace Both

variable {α : Type}

theorem get_set_of_ne (p : Both α) {s t : Side} (h : t ≠ s) (x : α) :
    (p.set s x).get t = p.get t := by
  cases s <;> cases t <;> first | rfl | exact absurd rfl h

@[simp] theorem get_modify (p : Both α) (s : Side) (f : α → α) :
    (p.modify s f).get s = f (p.get s) := get_set p s _

theorem get_modify_of_ne (p : Both α) {s t : Side} (h : t ≠ s) (f : α → α) :
    (p.modify s f).get t = p.get t := get_set_of_ne p h _

end Both

namespace Link

variable {ρ η : Type} (l : Link ρ η)

/-! ## Endpoints -/

@[simp] theorem endpoint_setEndpoint (s : Side) (e : Endpoint ρ Nat) :
    (l.setEndpoint s e).endpoint s = e := by
  simp [endpoint, setEndpoint]

theorem endpoint_setEndpoint_of_ne {s t : Side} (h : t ≠ s) (e : Endpoint ρ Nat) :
    (l.setEndpoint s e).endpoint t = l.endpoint t := by
  simp [endpoint, setEndpoint, Both.get_modify_of_ne _ h]

theorem endpoint_setEndpoint_eq (s : Side) (e : Endpoint ρ Nat) (t : Side) :
    (l.setEndpoint s e).endpoint t = if t = s then e else l.endpoint t := by
  split
  · next h => rw [h, endpoint_setEndpoint]
  · next h => exact endpoint_setEndpoint_of_ne l h e

@[simp] theorem endpoint_setClosing (s t : Side) (c : Closing η) :
    (l.setClosing s c).endpoint t = l.endpoint t := by
  by_cases h : t = s
  · subst h
    simp [endpoint, setClosing]
  · simp [endpoint, setClosing, Both.get_modify_of_ne _ h]

@[simp] theorem endpoint_report (x : Line) (s : Side) : (l.report x).endpoint s = l.endpoint s :=
  rfl

@[simp] theorem endpoint_notifyRemoteClosed (s t : Side) :
    (l.notifyRemoteClosed s).endpoint t = l.endpoint t := rfl

@[simp] theorem endpoint_modifyToken (t : Nat) (f : Token Side → Token Side) (s : Side) :
    (l.modifyToken t f).endpoint s = l.endpoint s := rfl

@[simp] theorem endpoint_modifyToken? (t : Option Nat) (f : Token Side → Token Side) (s : Side) :
    (l.modifyToken? t f).endpoint s = l.endpoint s := by
  cases t <;> rfl

@[simp] theorem endpoint_addMessage (s t : Side) :
    (l.addMessage s).endpoint t = l.endpoint t := rfl

/-! ## Messages -/

@[simp] theorem messages_modifyToken? (t : Option Nat) (f : Token Side → Token Side) :
    (l.modifyToken? t f).messages = l.messages := by
  cases t <;> rfl

/-! ## Tokens -/

@[simp] theorem tokens_setEndpoint (s : Side) (e : Endpoint ρ Nat) :
    (l.setEndpoint s e).tokens = l.tokens := rfl

/-! ## Tasks -/

@[simp] theorem tasks_setEndpoint (s : Side) (e : Endpoint ρ Nat) :
    (l.setEndpoint s e).tasks = l.tasks := rfl

@[simp] theorem tasks_report (x : Line) : (l.report x).tasks = l.tasks := rfl

@[simp] theorem tasks_modifyToken? (t : Option Nat) (f : Token Side → Token Side) :
    (l.modifyToken? t f).tasks = l.tasks := by
  cases t <;> rfl

@[simp] theorem tasks_addMessage (s : Side) : (l.addMessage s).tasks = l.tasks := rfl

/-! ## Close states -/

@[simp] theorem closing_setClosing (s : Side) (c : Closing η) :
    (l.setClosing s c).closing s = c := by
  simp [closing, setClosing]

theorem closing_setClosing_eq (s : Side) (c : Closing η) (t : Side) :
    (l.setClosing s c).closing t = if t = s then c else l.closing t := by
  split
  · next h => rw [h, closing_setClosing]
  · next h => simp [closing, setClosing, Both.get_modify_of_ne _ h]

@[simp] theorem closing_setEndpoint (s t : Side) (e : Endpoint ρ Nat) :
    (l.setEndpoint s e).closing t = l.closing t := by
  by_cases h : t = s
  · subst h
    simp [closing, setEndpoint]
  · simp [closing, setEndpoint, Both.get_modify_of_ne _ h]

@[simp] theorem closing_modifyToken? (t : Option Nat) (f : Token Side → Token Side) (s : Side) :
    (l.modifyToken? t f).closing s = l.closing s := by
  cases t <;> rfl

@[simp] theorem closing_addMessage (s t : Side) :
    (l.addMessage s).closing t = l.closing t := rfl

@[simp] theorem closing_report (x : Line) (s : Side) : (l.report x).closing s = l.closing s := rfl

end Link

/-! ## The endpoint that a step works on -/

/-- The message of an attempt was taken. -/
def Entry.isTaken {ρ : Type} : Entry ρ → Bool
  | .queued | .handed _ => true
  | .refused _ | .sleeps => false

/-- What is done to an endpoint during one hold of its lock, or by a wakeup without a
notification. -/
inductive Hold (ρ : Type) where
  | enter (w : Writer) (interrupted : Bool)
  | resume (w : Writer) (interrupted : Bool)
  | register (r : ρ)
  | shutDown
  | closeOff
  | wakeWriters
  | rouse (i : Nat)

/-- A writer tries to write. -/
def Hold.isAttempt {ρ : Type} : Hold ρ → Bool
  | .enter _ _ | .resume _ _ => true
  | _ => false

namespace Endpoint

variable {ρ μ : Type}

/-- The endpoint after one hold of its lock; `m` is the message that a write would add. -/
def after (pick : Nat) (m : μ) (e : Endpoint ρ μ) : Hold ρ → Endpoint ρ μ
  | .enter w interrupted => (e.enter pick w interrupted m).1
  | .resume w interrupted => (e.resume pick w interrupted m).1
  | .register r => (e.register pick r).1
  | .shutDown => e.shutDown.1
  | .closeOff => e.closeOff
  | .wakeWriters => e.wakeWriters
  | .rouse i => { e with writers := e.writers.rouse i }

end Endpoint

namespace Call

variable {ρ η : Type}

/-- The endpoint that the next step of the caller `who` works on, and what it does there. -/
def hold? (l : Link ρ η) (who : Nat) : Call ρ η → Option (Side × Hold ρ)
  | .write source token false => some (source.other, .enter ⟨who, token⟩ (l.isInterrupted token))
  | .write source token true => some (source.other, .resume ⟨who, token⟩ (l.isInterrupted token))
  | .shutDown source => some (source.other, .shutDown)
  | .receive side r => some (side, .register r)
  | .closeEndpoint side => some (side, .closeOff)
  | .interruptWake (s :: _) => some (s, .wakeWriters)
  | _ => none

/-- The close state that the next step of the caller `who` changes, and what becomes of it. -/
def closing? (l : Link ρ η) (who : Nat) : Call ρ η → Option (Side × Closing η)
  | .close side => some (side, (l.closing side).begin.1)
  | .closeComplete side => some (side, (l.closing side).complete.1)
  | .onClose side h => some (side, ((l.closing side).add h).1)
  | .awaitClosed side => some (side, ((l.closing side).wait who).1)
  | _ => none

/-- The call writes. -/
def isWrite : Call ρ η → Bool
  | .write _ _ _ => true
  | _ => false

theorem isAttempt_of_hold? {l : Link ρ η} {who : Nat} {c : Call ρ η} {s : Side} {h : Hold ρ}
    (hc : c.hold? l who = some (s, h)) : h.isAttempt = c.isWrite := by
  cases c with
  | write source token woken =>
    cases woken <;> cases hc <;> rfl
  | interruptWake places =>
    cases places with
    | nil => simp [hold?] at hc
    | cons p ps => cases hc; rfl
  | shutDown | receive | closeEndpoint => cases hc; rfl
  | _ => simp [hold?] at hc

/-- An attempt is made knowing whether the token of its writer is set. -/
theorem interrupted_of_hold? {l : Link ρ η} {who : Nat} {c : Call ρ η} {s : Side} {w : Writer}
    {interrupted : Bool} (hc : c.hold? l who = some (s, .enter w interrupted) ∨
      c.hold? l who = some (s, .resume w interrupted)) :
    l.isInterrupted w.token = interrupted := by
  cases c with
  | write source token woken => cases woken <;> rcases hc with hc | hc <;> cases hc <;> rfl
  | interruptWake places => cases places <;> simp [hold?] at hc
  | _ => simp [hold?] at hc

end Call

@[simp] theorem Token.isSet_park {ι : Type} (place : ι) (t : Token ι) :
    (t.park place).isSet = t.isSet := rfl

@[simp] theorem Token.isSet_unpark {ι : Type} [BEq ι] (place : ι) (t : Token ι) :
    (t.unpark place).isSet = t.isSet := by
  unfold Token.unpark
  split <;> rfl

namespace Link

variable {ρ η : Type} (l : Link ρ η)

theorem getElem?_modifyToken (t u : Nat) (f : Token Side → Token Side) :
    (l.modifyToken t f).tokens[u]? = if t = u then l.tokens[u]?.map f else l.tokens[u]? := by
  simp [modifyToken, Array.getElem?_modify]

theorem getElem?_modifyToken? (t : Option Nat) (u : Nat) (f : Token Side → Token Side) :
    (l.modifyToken? t f).tokens[u]? = if t = some u then l.tokens[u]?.map f else l.tokens[u]? := by
  cases t with
  | none => simp [modifyToken?]
  | some t => simp [modifyToken?, getElem?_modifyToken]

/-- Changing registries leaves every flag as it was. -/
theorem isInterrupted_modifyToken? (t u : Option Nat) {f : Token Side → Token Side}
    (hf : ∀ x, (f x).isSet = x.isSet) :
    (l.modifyToken? t f).isInterrupted u = l.isInterrupted u := by
  cases t with
  | none => rfl
  | some t =>
    cases u with
    | none => rfl
    | some u =>
      simp only [isInterrupted, modifyToken?, Option.bind_some, getElem?_modifyToken]
      by_cases h : t = u
      · subst h
        cases l.tokens[t]? <;> simp [hf]
      · simp [h]

/-- The first attempt of a write. -/
theorem stepWrite_first (pick who : Nat) (source : Side) (token : Option Nat) :
    l.stepWrite pick who source token false =
      l.finishWrite source token
        ((l.endpoint source.other).enter pick ⟨who, token⟩ (l.isInterrupted token)
          l.messages.size).1
        ((l.endpoint source.other).enter pick ⟨who, token⟩ (l.isInterrupted token)
          l.messages.size).2 := rfl

/-- The attempt of a writer that slept: its entry leaves the registry first. -/
theorem stepWrite_woken (pick who : Nat) (source : Side) (token : Option Nat) :
    l.stepWrite pick who source token true =
      (l.modifyToken? token (·.unpark source.other)).finishWrite source token
        ((l.endpoint source.other).resume pick ⟨who, token⟩ (l.isInterrupted token)
          l.messages.size).1
        ((l.endpoint source.other).resume pick ⟨who, token⟩ (l.isInterrupted token)
          l.messages.size).2 := by
  have flag := isInterrupted_modifyToken? l token token (Token.isSet_unpark source.other)
  simp only [stepWrite, if_true, endpoint_modifyToken?, messages_modifyToken?, flag]

/-- An attempt to write is decided with the messages and the tasks as they were. -/
theorem exists_finishWrite (pick who : Nat) (source : Side) (token : Option Nat) (woken : Bool) :
    ∃ (l' : Link ρ η) (e : Endpoint ρ Nat) (entry : Entry ρ),
      l.stepWrite pick who source token woken = l'.finishWrite source token e entry ∧
      l'.messages = l.messages ∧ l'.tasks = l.tasks := by
  cases woken with
  | false => exact ⟨_, _, _, stepWrite_first l pick who source token, rfl, rfl⟩
  | true =>
    exact ⟨_, _, _, stepWrite_woken l pick who source token, messages_modifyToken? l _ _,
      tasks_modifyToken? l _ _⟩

/-- A message that is taken is a fresh one behind the others. -/
theorem messages_finishWrite (source : Side) (token : Option Nat) (e : Endpoint ρ Nat)
    (entry : Entry ρ) :
    (l.finishWrite source token e entry).1.messages =
      if entry.isTaken then
        l.messages.push (Message.create (l.stations.get source).config.bufferSize)
      else l.messages := by
  cases entry with
  | sleeps => exact messages_modifyToken? _ _ _
  | queued | handed =>
    have own := Both.get_modify_of_ne l.stations (Side.ne_other source)
    simp [finishWrite, addMessage, setEndpoint, own, Entry.isTaken, report]
  | _ => rfl

theorem tasks_finishWrite (source : Side) (token : Option Nat) (e : Endpoint ρ Nat)
    (entry : Entry ρ) : (l.finishWrite source token e entry).1.tasks = l.tasks := by
  cases entry <;> simp [finishWrite]

/-- An attempt to write changes the endpoint it is made on, and no other. -/
theorem endpoint_finishWrite (source : Side) (token : Option Nat) (e : Endpoint ρ Nat)
    (entry : Entry ρ) (s : Side) :
    (l.finishWrite source token e entry).1.endpoint s =
      if s = source.other then e else l.endpoint s := by
  rw [← endpoint_setEndpoint_eq]
  cases entry <;> simp [finishWrite]

theorem endpoint_stepShutDown (source s : Side) :
    (l.stepShutDown source).1.endpoint s =
      if s = source.other then (l.endpoint source.other).shutDown.1 else l.endpoint s := by
  rw [← endpoint_setEndpoint_eq]
  simp only [stepShutDown]
  split
  · split <;> rfl
  · split <;> rfl

theorem endpoint_stepReceive (pick : Nat) (side s : Side) (r : ρ) :
    (l.stepReceive pick side r).1.endpoint s =
      if s = side then ((l.endpoint side).register pick r).1 else l.endpoint s := by
  rw [← endpoint_setEndpoint_eq]
  simp only [stepReceive]
  split
  · rfl
  · rfl
  · split <;> rfl

/-- The endpoints after a step: the call works on at most one of them. -/
theorem endpoint_step (pick who : Nat) (c : Call ρ η) (s : Side) :
    (l.step pick who c).1.endpoint s =
      match c.hold? l who with
      | some (t, h) => if s = t then (l.endpoint t).after pick l.messages.size h else l.endpoint s
      | none => l.endpoint s := by
  cases c with
  | write source token woken =>
    cases woken with
    | false => exact endpoint_finishWrite l source token _ _ s
    | true =>
      rw [step, stepWrite_woken, endpoint_finishWrite, endpoint_modifyToken?]
      rfl
  | submit ts r =>
    match ts with
    | [] => rfl
    | [t] => rfl
    | t :: t' :: ts => rfl
  | shutDown source => exact endpoint_stepShutDown l source s
  | receive side r => exact endpoint_stepReceive l pick side s r
  | closeEndpoint side => exact endpoint_setEndpoint_eq l side _ s
  | interruptWake places =>
    cases places with
    | nil => rfl
    | cons p ps => exact endpoint_setEndpoint_eq l p _ s
  | await i =>
    simp only [step]
    split <;> rfl
  | stream k c =>
    simp only [step]
    split
    · rfl
    · split <;> rfl
  | raise i => rfl
  | _ => simp [step, Call.hold?]

/-- The tokens, the messages and the tasks after a step that does not write: each is the business of
few calls. -/
theorem step_frame (pick who : Nat) {c : Call ρ η} (hc : c.isWrite = false) :
    ((l.step pick who c).1.tokens =
      match c with
      | .interrupt t => l.tokens.modify t Token.interrupt
      | .clear t => l.tokens.modify t fun token => token.clear.1
      | _ => l.tokens) ∧
    ((l.step pick who c).1.messages =
      match c with
      | .stream k c =>
        match l.messages[k]? with
        | some m => l.messages.setIfInBounds k (m.step who c).1
        | none => l.messages
      | _ => l.messages) ∧
    ((l.step pick who c).1.tasks =
      match c with
      | .submit (t :: _) _ => l.tasks ++ [t]
      | _ => l.tasks) := by
  cases c with
  | write source token woken => simp [Call.isWrite] at hc
  | submit ts r =>
    match ts with
    | [] => exact ⟨rfl, rfl, rfl⟩
    | [t] => exact ⟨rfl, rfl, rfl⟩
    | t :: t' :: ts => exact ⟨rfl, rfl, rfl⟩
  | shutDown source =>
    simp only [step, stepShutDown]
    split
    · split <;> exact ⟨rfl, rfl, rfl⟩
    · split <;> exact ⟨rfl, rfl, rfl⟩
  | receive side r =>
    simp only [step, stepReceive]
    split
    · exact ⟨rfl, rfl, rfl⟩
    · exact ⟨rfl, rfl, rfl⟩
    · split <;> exact ⟨rfl, rfl, rfl⟩
  | interruptWake places => cases places <;> exact ⟨rfl, rfl, rfl⟩
  | await i =>
    simp only [step]
    split <;> exact ⟨rfl, rfl, rfl⟩
  | stream k c =>
    cases found : l.messages[k]? with
    | none => simp [step, found]
    | some m =>
      simp only [step, found]
      split <;> exact ⟨rfl, rfl, rfl⟩
  | _ => exact ⟨rfl, rfl, rfl⟩

/-- An attempt to write has no business with close states and contexts. -/
theorem closing_finishWrite (source : Side) (token : Option Nat) (e : Endpoint ρ Nat)
    (entry : Entry ρ) (s : Side) :
    (l.finishWrite source token e entry).1.closing s = l.closing s := by
  cases entry <;> simp [finishWrite]

theorem contexts_modifyToken? (t : Option Nat) (f : Token Side → Token Side) :
    (l.modifyToken? t f).contexts = l.contexts ∧ (l.modifyToken? t f).shared = l.shared := by
  cases t <;> exact ⟨rfl, rfl⟩

theorem contexts_finishWrite (source : Side) (token : Option Nat) (e : Endpoint ρ Nat)
    (entry : Entry ρ) :
    (l.finishWrite source token e entry).1.contexts = l.contexts ∧
      (l.finishWrite source token e entry).1.shared = l.shared := by
  cases entry with
  | sleeps => exact contexts_modifyToken? _ _ _
  | _ => exact ⟨rfl, rfl⟩

/-- The close states after a step: the call changes at most one of them. -/
theorem closing_step (pick who : Nat) (c : Call ρ η) (s : Side) :
    (l.step pick who c).1.closing s =
      match c.closing? l who with
      | some (t, closing) => if s = t then closing else l.closing s
      | none => l.closing s := by
  cases c with
  | write source token woken =>
    cases woken with
    | false => exact closing_finishWrite l source token _ _ s
    | true =>
      rw [step, stepWrite_woken, closing_finishWrite, closing_modifyToken?]
      rfl
  | submit ts r =>
    match ts with
    | [] => rfl
    | [t] => rfl
    | t :: t' :: ts => rfl
  | shutDown source =>
    simp only [step, stepShutDown]
    split
    · split <;> simp [Call.closing?]
    · split <;> simp [Call.closing?]
  | receive side r =>
    simp only [step, stepReceive]
    split
    · simp [Call.closing?]
    · simp [Call.closing?]
    · split <;> simp [Call.closing?]
  | close side => exact closing_setClosing_eq l side _ s
  | closeComplete side => exact closing_setClosing_eq l side _ s
  | onClose side h => exact closing_setClosing_eq l side _ s
  | awaitClosed side => exact closing_setClosing_eq l side _ s
  | closeEndpoint side => exact closing_setEndpoint l side s _
  | interruptWake places =>
    cases places with
    | nil => rfl
    | cons p ps => exact closing_setEndpoint l p s _
  | await i =>
    simp only [step]
    split <;> rfl
  | stream k c =>
    simp only [step]
    split
    · rfl
    · split <;> rfl
  | _ => rfl

/-- The contexts after a step: only one call tells them of a closure. -/
theorem contexts_step (pick who : Nat) (c : Call ρ η) :
    ((l.step pick who c).1.contexts =
      match c with
      | .closeNotify side => (l.notifyRemoteClosed side.other).contexts
      | _ => l.contexts) ∧
    (l.step pick who c).1.shared = l.shared := by
  cases c with
  | write source token woken =>
    cases woken with
    | false => exact contexts_finishWrite l source token _ _
    | true =>
      rw [step, stepWrite_woken]
      obtain ⟨same, shared⟩ := contexts_modifyToken? l token (·.unpark source.other)
      exact ⟨(contexts_finishWrite _ source token _ _).1.trans same,
        (contexts_finishWrite _ source token _ _).2.trans shared⟩
  | submit ts r =>
    match ts with
    | [] => exact ⟨rfl, rfl⟩
    | [t] => exact ⟨rfl, rfl⟩
    | t :: t' :: ts => exact ⟨rfl, rfl⟩
  | shutDown source =>
    simp only [step, stepShutDown]
    split
    · split <;> exact ⟨rfl, rfl⟩
    · split <;> exact ⟨rfl, rfl⟩
  | receive side r =>
    simp only [step, stepReceive]
    split
    · exact ⟨rfl, rfl⟩
    · exact ⟨rfl, rfl⟩
    · split <;> exact ⟨rfl, rfl⟩
  | interruptWake places => cases places <;> exact ⟨rfl, rfl⟩
  | await i =>
    simp only [step]
    split <;> exact ⟨rfl, rfl⟩
  | stream k c =>
    simp only [step]
    split
    · exact ⟨rfl, rfl⟩
    · split <;> exact ⟨rfl, rfl⟩
  | _ => exact ⟨rfl, rfl⟩

/-- A wakeup without a notification touches at most the sleepers of an endpoint. -/
theorem endpoint_rouse (who : Nat) (c : Call ρ η) (s : Side) :
    (l.rouse who c).endpoint s = l.endpoint s ∨
      ∃ i, (l.rouse who c).endpoint s =
        { l.endpoint s with writers := (l.endpoint s).writers.rouse i } := by
  cases c with
  | write source token woken =>
    by_cases h : s = source.other
    · subst h
      exact .inr ⟨_, endpoint_setEndpoint l _ _⟩
    · exact .inl (endpoint_setEndpoint_of_ne l h _)
  | awaitClosed side => exact .inl (endpoint_setClosing l _ _ _)
  | _ => exact .inl rfl

theorem size_rouse (who : Nat) (c : Call ρ η) :
    (l.rouse who c).messages.size = l.messages.size := by
  cases c with
  | stream k c => exact Array.size_modify
  | _ => rfl

theorem tasks_rouse (who : Nat) (c : Call ρ η) : (l.rouse who c).tasks = l.tasks := by
  cases c <;> rfl

theorem tokens_rouse (who : Nat) (c : Call ρ η) : (l.rouse who c).tokens = l.tokens := by
  cases c <;> rfl

/-- Or it touches the callers that wait for a close to complete. -/
theorem closing_rouse (who : Nat) (c : Call ρ η) (s : Side) :
    (l.rouse who c).closing s = l.closing s ∨
      (l.rouse who c).closing s =
        { l.closing s with finished := (l.closing s).finished.rouseWhere (· == who) } := by
  cases c with
  | write source token woken => exact .inl (closing_setEndpoint l _ s _)
  | awaitClosed side =>
    by_cases h : s = side
    · subst h
      exact .inr (closing_setClosing l s _)
    · exact .inl ((closing_setClosing_eq l side _ s).trans (if_neg h))
  | _ => exact .inl rfl

theorem contexts_rouse (who : Nat) (c : Call ρ η) :
    (l.rouse who c).contexts = l.contexts ∧ (l.rouse who c).shared = l.shared := by
  cases c <;> exact ⟨rfl, rfl⟩

end Link

end Loopback
