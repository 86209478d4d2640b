import Loopback.Proofs.Journal
import Loopback.Proofs.Callers
import Loopback.Proofs.Renaming
import Loopback.Proofs.Wakeups
import Mathlib.Data.List.Infix

/-!
# A token that is never set makes no difference

A write under a token does what a write without one does, as long as the token is not set: it looks
at the flag, and it enters and leaves a registry that nobody reads. `Machine.plain t` is a machine
on which every write under the token `t` is a write without a token; while `t` is never set, it
takes the same steps (`Machine.run_plain`). A write that begins under a token that is set differs
only where it would have to wait, which it refuses (`Machine.step_write_set`).
`Machine.interruptible_differs_only_when_waiting` states both.
-/

namespace Loopback

/-- No token in place of the token `t`. -/
def plainToken (t : Nat) (token : Option Nat) : Option Nat := if token = some t then none else token

/-- A writer under the token `t` is one without a token. -/
def Writer.plain (t : Nat) (w : Writer) : Writer := ⟨w.caller, plainToken t w.token⟩

@[simp] theorem Writer.caller_plain (t : Nat) (w : Writer) : (w.plain t).caller = w.caller := rfl

/-- The registry of a token is empty. -/
def Token.unlisted {ι : Type} (t : Token ι) : Token ι := { t with parked := [] }

section Renamed

variable {ρ η : Type}

/-- A write under the token `t` is one without a token. -/
def Call.plain (t : Nat) : Call ρ η → Call ρ η
  | .write source token woken => .write source (plainToken t token) woken
  | c => c

/-- Nobody writes under the token `t` here. -/
def Station.plain (t : Nat) (st : Station ρ η) : Station ρ η :=
  { st with endpoint := st.endpoint.rename id (Writer.plain t) }

/-- Nobody writes under the token `t`. -/
def Link.plain (t : Nat) (l : Link ρ η) : Link ρ η :=
  { l with
    stations := ⟨l.stations.a.plain t, l.stations.b.plain t⟩
    tokens := l.tokens.modify t Token.unlisted }

/-- Nobody writes under the token `t`. -/
def Machine.plain (t : Nat) (m : Machine ρ η) : Machine ρ η :=
  ⟨m.link.plain t, m.calls.map fun x => (x.1, x.2.plain t)⟩

/-- A write that begins under the token `t` begins without a token. -/
def Move.plain (t : Nat) : Move ρ η → Move ρ η
  | .begin who c => .begin who (c.plain t)
  | mv => mv

/-- A step of a write under the token `t` is one of a write without a token. -/
def Taken.plain (t : Nat) (x : Taken ρ η) : Taken ρ η :=
  ⟨x.caller, x.call.plain t, x.outcome.map (Call.plain t)⟩

end Renamed

namespace Call

variable {ρ η : Type} (t : Nat) (c : Call ρ η)

@[simp] theorem isEntry_plain : (c.plain t).isEntry = c.isEntry := by
  cases c <;> rfl

@[simp] theorem madeOn?_plain : (c.plain t).madeOn? = c.madeOn? := by
  cases c <;> rfl

end Call

namespace Link

variable {ρ η : Type} (t : Nat) (l : Link ρ η)

@[simp] theorem endpoint_plain (s : Side) :
    (l.plain t).endpoint s = (l.endpoint s).rename id (Writer.plain t) := by
  cases s <;> rfl

@[simp] theorem closing_plain (s : Side) : (l.plain t).closing s = l.closing s := by
  cases s <;> rfl

@[simp] theorem setEndpoint_plain (s : Side) (e : Endpoint ρ Nat) :
    (l.plain t).setEndpoint s (e.rename id (Writer.plain t)) = (l.setEndpoint s e).plain t := by
  cases s <;> rfl

@[simp] theorem setClosing_plain (s : Side) (c : Closing η) :
    (l.plain t).setClosing s c = (l.setClosing s c).plain t := by
  cases s <;> rfl

@[simp] theorem report_plain (x : Line) : (l.plain t).report x = (l.report x).plain t := rfl

@[simp] theorem addMessage_plain (s : Side) :
    (l.plain t).addMessage s = (l.addMessage s).plain t := by
  cases s <;> rfl

/-- Changing a flag and emptying a registry can be done in either order. -/
theorem modifyToken_plain (u : Nat) {f : Token Side → Token Side}
    (same : ∀ x, f x.unlisted = (f x).unlisted) :
    (l.plain t).modifyToken u f = (l.modifyToken u f).plain t := by
  have tokens : (l.tokens.modify t Token.unlisted).modify u f =
      (l.tokens.modify u f).modify t Token.unlisted := by
    apply Array.ext_getElem?
    intro i
    simp only [Array.getElem?_modify]
    by_cases first : u = i <;> by_cases second : t = i <;> cases l.tokens[i]? <;>
      simp [first, second, same]
  simp only [modifyToken, plain, tokens]

/-- What a write does to the registry of its token cannot be seen when that is emptied. -/
theorem modifyToken?_plain (token : Option Nat) {f : Token Side → Token Side}
    (flag : ∀ x, (f x).isSet = x.isSet) :
    (l.plain t).modifyToken? (plainToken t token) f = (l.modifyToken? token f).plain t := by
  cases token with
  | none => rfl
  | some u =>
    have unlisted : ∀ x, (f x).unlisted = x.unlisted := fun x => by
      simp only [Token.unlisted, flag]
    by_cases here : u = t
    · subst here
      have tokens : (l.tokens.modify u f).modify u Token.unlisted =
          l.tokens.modify u Token.unlisted := by
        apply Array.ext_getElem?
        intro i
        simp only [Array.getElem?_modify]
        by_cases same : u = i <;> cases l.tokens[i]? <;> simp [same, unlisted]
      simp only [plainToken, if_true, modifyToken?, modifyToken, plain, tokens]
    · have tokens : (l.tokens.modify t Token.unlisted).modify u f =
          (l.tokens.modify u f).modify t Token.unlisted := by
        apply Array.ext_getElem?
        intro i
        simp only [Array.getElem?_modify]
        by_cases first : u = i
        · subst first
          simp [Ne.symm here]
        · simp [first]
      simp [plainToken, here, modifyToken?, modifyToken, plain, tokens]

@[simp] theorem flag_plain (token : Option Nat) :
    (l.plain t).isInterrupted token = l.isInterrupted token :=
  isInterrupted_modifyToken? l (some t) token (f := Token.unlisted) fun _ => rfl

/-- A write under a token that is not set is as little interrupted as one without. -/
theorem isInterrupted_plain (token : Option Nat) (clear : l.isInterrupted (some t) = false) :
    (l.plain t).isInterrupted (plainToken t token) = l.isInterrupted token := by
  rw [flag_plain]
  by_cases here : token = some t
  · rw [here, clear, plainToken, if_pos rfl]
    rfl
  · rw [plainToken, if_neg here]

/-- Whoever sleeps does so on the plain link, too. -/
@[simp] theorem isAsleep_plain (who : Nat) (c : Call ρ η) :
    (l.plain t).isAsleep who (c.plain t) = l.isAsleep who c := by
  cases c with
  | write source token woken =>
    simp [isAsleep, Call.plain, Endpoint.rename, Condition.map, Function.comp_def]
  | awaitClosed side => simp [isAsleep, Call.plain]
  | _ => rfl

@[simp] theorem rouse_plain (who : Nat) (c : Call ρ η) :
    (l.plain t).rouse who (c.plain t) = (l.rouse who c).plain t := by
  cases c with
  | write source token woken =>
    simp only [rouse, Call.plain, endpoint_plain, ← setEndpoint_plain, Endpoint.rename]
    rw [Condition.rouseWhere_map (p := (·.caller == who))]
    intro w
    rfl
  | awaitClosed side => simp [rouse, Call.plain]
  | _ => rfl

/-- What comes of an attempt to write, on a plain link. -/
theorem finishWrite_plain (source : Side) (token : Option Nat) (e : Endpoint ρ Nat)
    (entry : Entry ρ) :
    (l.plain t).finishWrite source (plainToken t token) (e.rename id (Writer.plain t)) entry =
      (l.finishWrite source token e entry).map (plain t) (Progress.map (Call.plain t)) := by
  cases entry with
  | sleeps =>
    simp only [finishWrite, setEndpoint_plain, modifyToken?_plain t _ token (Token.isSet_park _)]
    rfl
  | queued =>
    simp only [finishWrite, setEndpoint_plain, addMessage_plain, report_plain,
      Endpoint.size_rename]
    rfl
  | _ =>
    simp only [finishWrite, setEndpoint_plain, addMessage_plain, report_plain]
    rfl

/-- A write takes the same step whether or not it is under a token that is not set. -/
theorem stepWrite_plain {pick who : Nat} {source : Side} {token : Option Nat} {woken : Bool}
    (clear : l.isInterrupted (some t) = false)
    (alone : woken = true → ∀ w ∈ (l.endpoint source.other).writers.woken,
      w.caller = who → w = ⟨who, token⟩) :
    (l.plain t).stepWrite pick who source (plainToken t token) woken =
      (l.stepWrite pick who source token woken).map (plain t) (Progress.map (Call.plain t)) := by
  have flag := l.isInterrupted_plain t token clear
  have size : (l.plain t).messages.size = l.messages.size := rfl
  cases woken with
  | false =>
    have attempt := Endpoint.enter_rename id (Writer.plain t) pick ⟨who, token⟩
      (l.isInterrupted token) l.messages.size (l.endpoint source.other)
    rw [stepWrite_first, stepWrite_first, flag, size, endpoint_plain, ← finishWrite_plain]
    exact congrArg (fun a : Endpoint ρ Nat × Entry ρ =>
      (l.plain t).finishWrite source (plainToken t token) a.1 a.2) attempt
  | true =>
    have attempt := Endpoint.resume_rename id (Writer.plain t) pick ⟨who, token⟩
      (l.isInterrupted token) l.messages.size (l.endpoint source.other) ?_
    · rw [stepWrite_woken, stepWrite_woken, flag, size, endpoint_plain,
        modifyToken?_plain t l token (Token.isSet_unpark _), ← finishWrite_plain]
      exact congrArg (fun a : Endpoint ρ Nat × Entry ρ =>
        ((l.modifyToken? token (·.unpark source.other)).plain t).finishWrite source
          (plainToken t token) a.1 a.2) attempt
    · intro w here same
      exact alone rfl w here (congrArg Writer.caller same)

/-- While the token is not set and nobody copies its registry, every caller takes the same step. -/
theorem step_plain {pick who : Nat} {c : Call ρ η} (clear : l.isInterrupted (some t) = false)
    (alone : ∀ source token, c = .write source token true →
      ∀ w ∈ (l.endpoint source.other).writers.woken, w.caller = who → w = ⟨who, token⟩)
    (uncopied : c = .interruptCopy t → l.tokens[t]? = none) :
    (l.plain t).step pick who (c.plain t) =
      (l.step pick who c).map (plain t) (Progress.map (Call.plain t)) := by
  cases c with
  | write source token woken =>
    exact stepWrite_plain t l clear fun slept => alone source token (by rw [slept])
  | submit tasks r =>
    match tasks with
    | [] => rfl
    | [x] => rfl
    | x :: y :: tasks => rfl
  | shutDown source =>
    simp only [Call.plain, step, stepShutDown, endpoint_plain, Endpoint.shutDown_rename,
      Prod.map_fst, Prod.map_snd, setEndpoint_plain, report_plain, Endpoint.closed_rename]
    cases (l.endpoint source.other).shutDown.2 <;> cases (l.endpoint source.other).closed <;>
      simp [Progress.map, Call.plain]
  | receive side r =>
    simp only [Call.plain, step, stepReceive, endpoint_plain, Endpoint.register_rename,
      Prod.map_fst, Prod.map_snd, setEndpoint_plain, report_plain, Registration.map_id,
      Endpoint.size_rename]
    cases ((l.endpoint side).register pick r).2 with
    | given d => cases h : d.delivery <;> simp [h, Progress.map, Call.plain]
    | _ => rfl
  | close side =>
    simp only [Call.plain, step, closing_plain, setClosing_plain]
    split <;> rfl
  | onClose side h =>
    simp only [Call.plain, step, closing_plain, setClosing_plain]
    split <;> rfl
  | awaitClosed side =>
    simp only [Call.plain, step, closing_plain, setClosing_plain]
    split <;> rfl
  | closeEndpoint side =>
    simp only [Call.plain, step, endpoint_plain, Endpoint.closeOff_rename, setEndpoint_plain]
    rfl
  | closeComplete side =>
    simp only [Call.plain, step, closing_plain, setClosing_plain]
    rfl
  | isOpen side =>
    simp only [Call.plain, step, closing_plain]
    rfl
  | interrupt u =>
    have kept := modifyToken_plain t l u (f := Token.interrupt) fun _ => rfl
    simp only [Call.plain, step, kept]
    rfl
  | clear u =>
    have kept := modifyToken_plain t l u (f := fun x => x.clear.1) fun _ => rfl
    simp only [Call.plain, step, kept, flag_plain]
    rfl
  | isInterrupted u =>
    simp only [Call.plain, step, flag_plain]
    rfl
  | interruptCopy u =>
    have same : (l.plain t).tokens[u]?.map Token.parked = l.tokens[u]?.map Token.parked := by
      by_cases here : u = t
      · subst here
        simp only [plain, Array.getElem?_modify, uncopied rfl, ite_self, Option.map_none]
      · simp [plain, Array.getElem?_modify, Ne.symm here]
    simp only [Call.plain, step, same]
    rfl
  | interruptWake places =>
    cases places with
    | nil => rfl
    | cons s places =>
      simp only [Call.plain, step, endpoint_plain, Endpoint.wakeWriters_rename, setEndpoint_plain]
      rfl
  | await i =>
    have signals : (l.plain t).signals = l.signals := rfl
    simp only [Call.plain, step, signals]
    cases l.signals[i]? with
    | none => rfl
    | some signal => cases h : (signal.wait who).2 <;> simp [h, Progress.map, Call.plain, plain]
  | stream k c =>
    have messages : (l.plain t).messages = l.messages := rfl
    simp only [Call.plain, step, messages]
    split
    · rfl
    · next msg found =>
      generalize msg.step who c = outcome
      obtain ⟨msg', progress⟩ := outcome
      cases progress <;> cases c <;> rfl
  | _ => rfl

/-- What a step decides does not show whether a write was under the token. -/
theorem events_plain {pick who : Nat} {c : Call ρ η}
    (same : (l.plain t).step pick who (c.plain t) =
      (l.step pick who c).map (plain t) (Progress.map (Call.plain t))) :
    (l.plain t).events pick who (c.plain t) = l.events pick who c := by
  simp only [events, same, Prod.map_snd]
  generalize (l.step pick who c).2 = outcome
  cases c with
  | write | receive | shutDown =>
    cases outcome with
    | done r => rcases r with _ | _ | _ | _ | _ | _ <;> rfl
    | asleep c' => rfl
    | more c' =>
      cases c' with
      | submit tasks r => rcases r with _ | _ | _ | _ | _ | _ <;> rfl
      | _ => rfl
  | _ => cases outcome <;> rfl

/-- No step adds a token. -/
theorem size_tokens_step (pick who : Nat) (c : Call ρ η) :
    (l.step pick who c).1.tokens.size = l.tokens.size := by
  have modified : ∀ (l : Link ρ η) token f,
      (l.modifyToken? token f).tokens.size = l.tokens.size := by
    intro l token f
    cases token with
    | none => rfl
    | some u => exact Array.size_modify
  have finished : ∀ (l : Link ρ η) source token e entry,
      (l.finishWrite source token e entry).1.tokens.size = l.tokens.size := by
    intro l source token e entry
    cases entry with
    | sleeps => exact modified _ token _
    | _ => rfl
  cases other : c.isWrite with
  | true =>
    cases c with
    | write source token woken =>
      cases woken with
      | false => rw [step, stepWrite_first, finished]
      | true => rw [step, stepWrite_woken, finished, modified]
    | _ => cases other
  | false =>
    rw [(l.step_frame pick who other).1]
    split
    · exact Array.size_modify
    · exact Array.size_modify
    · rfl

end Link

namespace Machine

variable {ρ η : Type} (t : Nat) {m m' : Machine ρ η}

@[simp] theorem link_plain (m : Machine ρ η) : (m.plain t).link = m.link.plain t := rfl

@[simp] theorem call?_plain (m : Machine ρ η) (who : Nat) :
    (m.plain t).call? who = (m.call? who).map (Call.plain t) := by
  have found : ∀ calls : List (Nat × Call ρ η),
      (calls.map fun x => (x.1, x.2.plain t)).lookup who =
        (calls.lookup who).map (Call.plain t) := by
    intro calls
    induction calls with
    | nil => rfl
    | cons x calls ih =>
      obtain ⟨y, c⟩ := x
      by_cases same : who = y
      · simp [same]
      · simp [List.lookup_cons, beq_eq_false_iff_ne.2 same, ih]
  exact found m.calls

@[simp] theorem canBegin_plain (m : Machine ρ η) (who : Nat) (c : Call ρ η) :
    (m.plain t).canBegin who (c.plain t) = m.canBegin who c := by
  have free : (m.plain t).isFree (c.plain t) = m.isFree c := by
    simp only [isFree, Call.madeOn?_plain, plain, List.all_map, Function.comp_def]
  simp [canBegin, isIdle, free]

/-- The token is not set, and nobody is about to copy its registry. -/
structure Unset (t : Nat) (m : Machine ρ η) : Prop where
  clear : m.link.isInterrupted (some t) = false
  uncopied : ∀ who, (who, .interruptCopy t) ∈ m.calls → m.link.tokens[t]? = none

/-- A token that was not set before a move and is not set after it was not set on the way. -/
theorem Unset.of_moves {mv : Move ρ η} {es : List (Event ρ η)} (orderly : m.Orderly)
    (unset : m.Unset t) (one : Moves m mv m' es)
    (clear : m'.link.isInterrupted (some t) = false) : m'.Unset t := by
  refine ⟨clear, fun who there => ?_⟩
  cases one with
  | stays => exact unset.uncopied who there
  | takes => exact unset.uncopied who there
  | begins idle entry free =>
    rcases List.mem_append.1 there with old | new
    · exact unset.uncopied who old
    · obtain ⟨-, rfl⟩ := Prod.mk.inj (List.mem_singleton.1 new)
      cases entry
  | rouses now =>
    rw [Link.tokens_rouse]
    exact unset.uncopied who there
  | @steps x pick c rest calls now awake next =>
    rw [Array.getElem?_eq_none_iff, Link.size_tokens_step, ← Array.getElem?_eq_none_iff]
    rcases (mem_calls_step orderly now next).1 there with ⟨rfl, onward⟩ | ⟨-, old⟩
    · cases Link.follows_step onward with
      | copies =>
        -- The flag was just set, and yet it is clear: there is no such token.
        simp only [Link.isInterrupted, Option.bind_some, Link.step, Link.getElem?_modifyToken,
          if_true] at clear
        cases found : m.link.tokens[t]? with
        | none => rfl
        | some token =>
          rw [found] at clear
          cases clear
    · exact unset.uncopied who old

/-- Nobody else who waits at an endpoint is taken for the writer that runs again. -/
theorem Booked.alone (orderly : m.Orderly) (booked : m.Booked) {who : Nat} {source : Side}
    {token : Option Nat} (here : (who, .write source token true) ∈ m.calls) :
    ∀ w ∈ (m.link.endpoint source.other).writers.woken, w.caller = who → w = ⟨who, token⟩ := by
  rintro ⟨x, token'⟩ woken rfl
  have there := booked.mem_calls (List.mem_append_right _ woken)
  rw [Side.other_other] at there
  have same := (call?_of_mem orderly there).symm.trans (call?_of_mem orderly here)
  cases same
  rfl

/-- A write that begins is not asleep. -/
theorem Booked.awake_of_first (orderly : m.Orderly) (booked : m.Booked) {who : Nat} {source : Side}
    {token : Option Nat} (here : (who, .write source token false) ∈ m.calls) :
    ∀ token' woken, m.link.isAsleep who (.write source token' woken) = false := by
  intro token' woken
  simp only [Link.isAsleep, List.any_eq_false, beq_iff_eq]
  rintro ⟨x, token''⟩ asleep rfl
  have there := booked.mem_calls (List.mem_append_left _ asleep)
  have same := (call?_of_mem orderly there).symm.trans (call?_of_mem orderly here)
  injection same with same
  cases (Call.write.inj same).2.2

section Steps

variable (orderly : m.Orderly) (booked : m.Booked) (unset : m.Unset t)

include orderly booked unset

/-- While the token is not set, the plain machine takes the same steps. -/
theorem link_step_plain {who : Nat} {c : Call ρ η} (here : (who, c) ∈ m.calls) (pick : Nat) :
    (m.link.plain t).step pick who (c.plain t) =
      (m.link.step pick who c).map (Link.plain t) (Progress.map (Call.plain t)) := by
  refine m.link.step_plain t unset.clear ?_ ?_
  · rintro source token rfl
    exact booked.alone orderly here
  · rintro rfl
    exact unset.uncopied who here

theorem step_plain (who pick : Nat) :
    (m.plain t).step who pick = (m.step who pick).map (plain t) id := by
  cases call : m.call? who with
  | none => simp [step, call]
  | some c =>
    have here := (call?_eq_some_iff orderly).1 call
    cases awake : m.link.isAsleep who c with
    | true => simp [step, call, awake]
    | false =>
      have same := link_step_plain t orderly booked unset here pick
      simp only [step, call?_plain, call, Option.map_some, link_plain, Link.isAsleep_plain, awake,
        Bool.false_eq_true, if_false, same, Prod.map_fst, Prod.map_snd]
      cases (m.link.step pick who c).2 with
      | done r => simp [Progress.map, plain, List.filter_map, Function.comp_def]
      | more c' | asleep c' =>
        simp only [Progress.map, plain, setCall, List.map_map, Prod.map, id]
        congr 2
        refine List.map_congr_left fun x _ => ?_
        simp only [Function.comp_apply]
        split <;> rfl

/-- While the token is not set, the plain machine does the same at every move. -/
theorem move_plain (mv : Move ρ η) :
    (m.plain t).move (mv.plain t) = (m.move mv).plain t ∧
      (m.plain t).taken? (mv.plain t) = (m.taken? mv).map (Taken.plain t) ∧
      (m.plain t).events (mv.plain t) = m.events mv := by
  cases mv with
  | begin who c =>
    refine ⟨?_, rfl, rfl⟩
    simp only [Move.plain, move, begin, canBegin_plain]
    split
    · simp [plain]
    · rfl
  | rouse who =>
    refine ⟨?_, rfl, rfl⟩
    simp only [Move.plain, move, rouse, call?_plain]
    cases m.call? who with
    | none => rfl
    | some c => simp [plain]
  | takeTask i =>
    have tasks : (m.plain t).link.tasks = m.link.tasks := rfl
    refine ⟨?_, rfl, ?_⟩
    · simp only [Move.plain, move, takeTask?, Link.takeTask?, tasks]
      cases m.link.tasks[i]? <;> rfl
    · simp only [Move.plain, events, tasks]
  | step who pick =>
    refine ⟨congrArg Prod.fst (step_plain t orderly booked unset who pick), ?_⟩
    simp only [Move.plain, taken?, events, call?_plain, link_plain]
    cases call : m.call? who with
    | none => exact ⟨rfl, rfl⟩
    | some c =>
      have here := (call?_eq_some_iff orderly).1 call
      have same := link_step_plain t orderly booked unset here pick
      simp only [Option.map_some, Link.isAsleep_plain, m.link.events_plain t same, same,
        Prod.map_snd, and_true]
      split <;> rfl

end Steps

/-- The fresh machine has no writer under any token. -/
theorem plain_fresh (config : Config) (first : String) (second : Option String)
    (tokens signals : Nat) :
    (fresh config first second tokens signals : Machine ρ η).plain t =
      fresh config first second tokens signals := by
  have none : (Array.replicate tokens Token.create : Array (Token Side)).modify t Token.unlisted =
      Array.replicate tokens Token.create := by
    apply Array.ext_getElem?
    intro i
    simp only [Array.getElem?_modify, Array.getElem?_replicate]
    split
    · split <;> rfl
    · rfl
  simp only [plain, Link.plain, fresh, create, none]
  rfl

/-- Along a schedule on which the token is never set, the plain machine takes the same steps. -/
theorem run_plain (config : Config) (first : String) (second : Option String)
    (tokens signals : Nat) (schedule : List (Move ρ η))
    (unset : ∀ front, front <+: schedule →
      ((fresh config first second tokens signals).run front).link.isInterrupted (some t) = false) :
    let pair : Machine ρ η := fresh config first second tokens signals
    pair.run (schedule.map (Move.plain t)) = (pair.run schedule).plain t ∧
      pair.journal (schedule.map (Move.plain t)) = (pair.journal schedule).map (Taken.plain t) ∧
      pair.history (schedule.map (Move.plain t)) = pair.history schedule ∧
      (pair.run schedule).Unset t := by
  intro pair
  have reached (front : List (Move ρ η)) : (pair.run front).Reachable := ⟨_, _, _, _, _, front, rfl⟩
  have start : pair.Orderly := orderly_fresh config first second tokens signals
  induction schedule using List.reverseRecOn with
  | nil =>
    refine ⟨(plain_fresh t config first second tokens signals).symm, rfl, rfl,
      unset [] (List.prefix_refl _), ?_⟩
    exact fun _ here => absurd here List.not_mem_nil
  | append_singleton front mv ih =>
    obtain ⟨run, journal, history, before⟩ := ih fun front' earlier =>
      unset front' (earlier.trans (List.prefix_append _ _))
    have orderly := orderly_run start front
    obtain ⟨move, taken, events⟩ := move_plain t orderly (reached front).booked before mv
    have after := before.of_moves t orderly (moves orderly mv) (by
      simpa [Machine.run] using unset _ (List.prefix_refl _))
    rw [List.map_append, run_append, run_append, journal_append, journal_append, history_append,
      history_append, run, journal, history]
    refine ⟨move, ?_, ?_, after⟩
    · simp only [Machine.journal, List.map_cons, List.map_nil, List.append_nil, List.map_append,
        taken]
      cases (pair.run front).taken? mv <;> rfl
    · simp only [Machine.history, List.map_cons, List.map_nil, List.append_nil, events]

/-! ## A token that is set -/

end Machine

namespace Link

variable {ρ η : Type} {l : Link ρ η} {pick who : Nat} {source : Side} {token : Option Nat}

theorem setEndpoint_self (s : Side) : l.setEndpoint s (l.endpoint s) = l := by
  cases s <;> rfl

/-- A closed endpoint refuses a write at once. -/
theorem step_write_closed (shut : (l.endpoint source.other).closed = true) :
    l.step pick who (.write source token false) = (l, .done (.error .notOpen)) := by
  rw [step, stepWrite_first]
  simp only [Endpoint.enter, shut, if_true, finishWrite, setEndpoint_self]

/-- A full mailbox refuses a write under a token that is set. -/
theorem step_write_full (opened : (l.endpoint source.other).closed = false)
    (full : (l.endpoint source.other).mailbox.isFull = true)
    (flag : l.isInterrupted token = true) :
    l.step pick who (.write source token false) = (l, .done (.error .interrupted)) := by
  rw [step, stepWrite_first]
  simp only [Endpoint.enter, opened, full, flag, Bool.not_true, Bool.false_eq_true, if_false,
    if_true, finishWrite, setEndpoint_self]

section Room

variable (opened : (l.endpoint source.other).closed = false)
  (room : (l.endpoint source.other).mailbox.isFull = false)

include opened room

/-- Where there is room, the token of a write makes no difference. -/
theorem step_write_room : l.step pick who (.write source token false) =
    l.finishWrite source none
      ((l.endpoint source.other).accept pick l.messages.size).1
      ((l.endpoint source.other).accept pick l.messages.size).2 := by
  rw [step, stepWrite_first]
  have taken : (l.endpoint source.other).enter pick ⟨who, token⟩ (l.isInterrupted token)
      l.messages.size = (l.endpoint source.other).accept pick l.messages.size := by
    simp only [Endpoint.enter, opened, room, Bool.not_false, Bool.false_eq_true, if_false, if_true]
  rw [taken]
  unfold Endpoint.accept
  split <;> rfl

theorem delivered_of_room : .delivered source.other l.messages.size ∈
    l.events pick who (.write source token false : Call ρ η) := by
  have outcome : l.step pick who (.write source token false) = _ := step_write_room opened room
  have taken : ((l.endpoint source.other).accept pick l.messages.size).2 = .queued ∨
      ∃ r, ((l.endpoint source.other).accept pick l.messages.size).2 = .handed r := by
    unfold Endpoint.accept
    split
    · exact .inr ⟨_, rfl⟩
    · exact .inl rfl
  rcases taken with queued | ⟨r, handed⟩
  · simp [events, outcome, finishWrite, queued, setEndpoint]
  · simp [events, outcome, finishWrite, handed, setEndpoint]

theorem tokens_of_room : (l.step pick who (.write source token false)).1.tokens = l.tokens := by
  rw [step_write_room opened room, Endpoint.accept]
  split <;> rfl

end Room

end Link

namespace Machine

variable {ρ η : Type} {t : Nat} {m : Machine ρ η}

/-- Calls that take the same step make no difference. -/
theorem step_setCall (orderly : m.Orderly) {who pick : Nat} {c c' : Call ρ η}
    (here : (who, c) ∈ m.calls) (awake : m.link.isAsleep who c = false)
    (awake' : m.link.isAsleep who c' = false)
    (same : m.link.step pick who c' = m.link.step pick who c) :
    (m.setCall who c').step who pick = m.step who pick := by
  have call := call?_of_mem orderly here
  obtain ⟨front, back, calls, others⟩ := calls_eq orderly call
  have changed := calls_setCall calls others c'
  have absent : front.lookup who = none := by
    rw [List.lookup_eq_none_iff]
    intro x hx
    exact bne_iff_ne.2 fun same => others x (List.mem_append_left _ hx) same.symm
  have call' : (m.setCall who c').call? who = some c' := by
    simp [call?, changed, List.lookup_append, absent]
  have link : (m.setCall who c').link = m.link := rfl
  simp only [step, call, call', link, awake, awake', same, Bool.false_eq_true, if_false]
  cases (m.link.step pick who c).2 with
  | done r =>
    simp only [calls_filter (m := m) calls others,
      calls_filter (m := m.setCall who c') changed others]
  | more next | asleep next =>
    have after := calls_setCall (m := m) calls others next
    have after' := calls_setCall (m := m.setCall who c') changed others next
    simp only [setCall] at after after' ⊢
    rw [after, after']

/-- A write that begins under a token that is set: it is refused by a closed endpoint, it is taken
as a write without a token where there is room, and where it would have to wait it gives up. -/
theorem step_write_set (orderly : m.Orderly) (booked : m.Booked) {who : Nat} {source : Side}
    (here : (who, .write source (some t) false) ∈ m.calls)
    (flag : m.link.isInterrupted (some t) = true) (pick : Nat) :
    (m.step who pick).1.link.tokens = m.link.tokens ∧
      ((m.link.endpoint source.other).closed = true →
        (m.step who pick).2 = some (.error .notOpen) ∧ (m.step who pick).1.link = m.link) ∧
      ((m.link.endpoint source.other).closed = false →
        (m.link.endpoint source.other).mailbox.isFull = false →
        m.step who pick = (m.setCall who (.write source none false)).step who pick ∧
          .delivered source.other m.link.messages.size ∈ m.events (.step who pick)) ∧
      ((m.link.endpoint source.other).closed = false →
        (m.link.endpoint source.other).mailbox.isFull = true →
        (m.step who pick).2 = some (.error .interrupted) ∧ (m.step who pick).1.link = m.link) := by
  have call := call?_of_mem orderly here
  have awake := booked.awake_of_first orderly here
  cases shut : (m.link.endpoint source.other).closed with
  | true =>
    have refused : m.link.step pick who (.write source (some t) false) = _ :=
      Link.step_write_closed shut
    simp [step, call, awake, refused]
  | false =>
    cases full : (m.link.endpoint source.other).mailbox.isFull with
    | true =>
      have refused : m.link.step pick who (.write source (some t) false) = _ :=
        Link.step_write_full shut full flag
      simp [step, call, awake, refused]
    | false =>
      obtain ⟨rest, -, link, -⟩ := step_of_awake orderly call (awake _ _) pick
      refine ⟨?_, fun absurd => Bool.noConfusion absurd, fun _ _ => ⟨?_, ?_⟩,
        fun _ absurd => Bool.noConfusion absurd⟩
      · rw [link]
        exact Link.tokens_of_room shut full
      · refine (step_setCall orderly here (awake _ _) (awake _ _) ?_).symm
        rw [Link.step_write_room shut full, Link.step_write_room shut full]
      · simp only [events, call, awake, Bool.false_eq_true, if_false]
        exact Link.delivered_of_room shut full

/-- The write under a token differs from the one without only when it must wait under a token that
is set. Along a schedule on which the token `t` is never set, each write under `t` can be replaced
by one without a token: every step comes to the same, the same is decided, and the endpoints are the
same but for who is named as the waiting writer. And a write that begins under a token that is set
is refused by a closed endpoint, taken like any other where there is room, and otherwise gives up at
once; the token stays set. -/
theorem interruptible_differs_only_when_waiting (config : Config) (first : String)
    (second : Option String) (tokens signals : Nat) (schedule : List (Move ρ η)) (t : Nat) :
    let pair : Machine ρ η := fresh config first second tokens signals
    let m := pair.run schedule
    ((∀ front, front <+: schedule → (pair.run front).link.isInterrupted (some t) = false) →
      ∀ front, front <+: schedule →
        let plainly := front.map (Move.plain t)
        pair.journal plainly = (pair.journal front).map (Taken.plain t) ∧
          pair.history plainly = pair.history front ∧
          (∀ s, (pair.run plainly).link.endpoint s =
            ((pair.run front).link.endpoint s).rename id (Writer.plain t)) ∧
          ∀ who pick, ((pair.run plainly).step who pick).2 = ((pair.run front).step who pick).2) ∧
    ∀ who source pick, (who, .write source (some t) false) ∈ m.calls →
      m.link.isInterrupted (some t) = true →
      (m.step who pick).1.link.isInterrupted (some t) = true ∧
        ((m.link.endpoint source.other).closed = true →
          (m.step who pick).2 = some (.error .notOpen) ∧ (m.step who pick).1.link = m.link) ∧
        ((m.link.endpoint source.other).closed = false →
          (m.link.endpoint source.other).mailbox.isFull = false →
          m.step who pick = (m.setCall who (.write source none false)).step who pick ∧
            .delivered source.other m.link.messages.size ∈ m.events (.step who pick)) ∧
        ((m.link.endpoint source.other).closed = false →
          (m.link.endpoint source.other).mailbox.isFull = true →
          (m.step who pick).2 = some (.error .interrupted) ∧ (m.step who pick).1.link = m.link) := by
  intro pair m
  have reached (front : List (Move ρ η)) : (pair.run front).Reachable := ⟨_, _, _, _, _, front, rfl⟩
  have orderly (front : List (Move ρ η)) : (pair.run front).Orderly :=
    orderly_run (orderly_fresh config first second tokens signals) front
  constructor
  · intro never front earlier plainly
    obtain ⟨run, journal, history, unset⟩ := run_plain t config first second tokens signals front
      fun front' before => never front' (before.trans earlier)
    refine ⟨journal, history, fun s => ?_, fun who pick => ?_⟩
    · rw [run, link_plain, Link.endpoint_plain]
    · rw [run, step_plain t (orderly front) (reached front).booked unset]
      rfl
  · intro who source pick here flag
    obtain ⟨tokens', outcomes⟩ := step_write_set (orderly schedule) (reached schedule).booked here
      flag pick
    refine ⟨?_, outcomes⟩
    rw [Link.isInterrupted, tokens']
    exact flag

/-- Caller 0 fills the mailbox, caller 1 sleeps under token 0 until a receiver takes a message, and
then fills it again. Caller 3 begins to write under the token. -/
def sleepingUnder : List (Move Nat Nat) :=
  [.begin 0 (.write .a none false), .step 0 0, .begin 1 (.write .a (some 0) false), .step 1 0,
    .begin 2 (.receive .b 9), .step 2 0, .step 2 0, .step 1 0, .begin 3 (.write .a (some 0) false)]

/-- Caller 4 sets token 0. -/
def settingLate : List (Move Nat Nat) := [.begin 4 (.interrupt 0), .step 4 0]

/-- Along `sleepingUnder` the token makes no difference, and after `settingLate` caller 3 gives up.
-/
theorem gives_up_after_settingLate :
    ∃ pair : Machine Nat Nat, pair = fresh ⟨1, 4⟩ "pair" none 1 0 ∧
      pair.history (sleepingUnder.map (Move.plain 0)) = pair.history sleepingUnder ∧
      ((pair.run (sleepingUnder.map (Move.plain 0))).step 3 0).2 =
        ((pair.run sleepingUnder).step 3 0).2 ∧
      ((pair.run (sleepingUnder ++ settingLate)).step 3 0).2 = some (.error .interrupted) := by
  have never : ∀ front, front <+: sleepingUnder → ((fresh ⟨1, 4⟩ "pair" none 1 0 :
      Machine Nat Nat).run front).link.isInterrupted (some 0) = false := by
    intro front earlier
    have all : ∀ front ∈ sleepingUnder.inits, ((fresh ⟨1, 4⟩ "pair" none 1 0 :
        Machine Nat Nat).run front).link.isInterrupted (some 0) = false := by decide +kernel
    exact all front ((List.mem_inits _ _).2 earlier)
  obtain ⟨-, history, -, answers⟩ := (interruptible_differs_only_when_waiting ⟨1, 4⟩ "pair" none 1 0
    sleepingUnder 0).1 never sleepingUnder (List.prefix_refl _)
  have set := (interruptible_differs_only_when_waiting (ρ := Nat) (η := Nat) ⟨1, 4⟩ "pair" none 1 0
    (sleepingUnder ++ settingLate) 0).2 3 .a 0 List.mem_cons_self (by decide +kernel)
  exact ⟨_, rfl, history, answers 3 0, (set.2.2.2 (by decide +kernel) (by decide +kernel)).1⟩

end Machine

end Loopback
