import Loopback.Proofs.Callers
import Loopback.Proofs.ClosingOrder
import Loopback.Proofs.Pairing
import Loopback.Proofs.Renaming

/-!
# What a direction consists of

Writes towards a side and its shutdown by the other side meet receives there and its close at one
endpoint. `Call.inbound` says of a call which side it is about in this sense, and what it is about
is all that it reads and changes. Two links that agree on it, up to the numbers of the messages, are
`Link.Beside` each other: a step of the one direction does the same on both, and a step of the other
direction leaves them so.
-/

namespace Loopback

variable {ρ η : Type}

/-! ## Calls of one direction -/

/-- The task runs something with a handle on side `s`. -/
def Task.isFor (s : Side) : Task ρ η → Bool
  | .receive side _ | .closed side _ => side = s

/-- The call is about what is received on side `s`: it writes towards `s` or stops writes towards
it, receives there, or closes it or waits for that. Its token, if it has one, belongs to `s`. -/
def Call.inbound (realm : Nat → Side) (s : Side) : Call ρ η → Bool
  | .write source token _ => source.other = s && token.all fun t => realm t = s
  | .submit tasks _ => tasks.all (Task.isFor s)
  | .shutDown source => source.other = s
  | .receive side _ | .close side | .closeEndpoint side | .closeReport side | .closeNotify side
  | .closeComplete side | .onClose side _ | .awaitClosed side | .isOpen side => side = s
  | .interrupt t | .interruptCopy t | .clear t | .isInterrupted t => realm t = s
  | .interruptWake places => places.all (· = s)
  | .raise _ | .await _ | .stream _ _ | .report _ => false

/-- A caller of the direction towards `s` is one with `home = s`: the calls it begins are about what
is received on `s`. No task is started. -/
def Move.keepsTo (home realm : Nat → Side) : Move ρ η → Bool
  | .begin who c => c.inbound realm (home who)
  | .step _ _ | .rouse _ => true
  | .takeTask _ => false

/-- The move is made by a caller of the direction towards `s`. -/
def Move.isOf (home : Nat → Side) (s : Side) : Move ρ η → Bool
  | .begin who _ | .step who _ | .rouse who => home who = s
  | .takeTask _ => false

/-- The task that the next step of a call hands to the executor. -/
def Call.handed? : Call ρ η → Option (Task ρ η)
  | .submit (t :: _) _ => some t
  | _ => none

theorem Link.tasks_step (l : Link ρ η) (pick who : Nat) (c : Call ρ η) :
    (l.step pick who c).1.tasks = l.tasks ++ c.handed?.toList := by
  cases writes : c.isWrite with
  | true =>
    cases c with
    | write source token woken =>
      obtain ⟨l', e, entry, h, -, same⟩ := l.exists_finishWrite pick who source token woken
      rw [step, h, tasks_finishWrite, same]
      exact (List.append_nil _).symm
    | _ => cases writes
  | false =>
    rw [(l.step_frame pick who writes).2.2]
    cases c with
    | submit tasks r => cases tasks <;> simp [Call.handed?]
    | _ => exact (List.append_nil _).symm

namespace Task

variable {f : Nat → Nat} {s t : Side}

@[simp] theorem isFor_rename (x : Task ρ η) : (x.rename f).isFor s = x.isFor s := by
  cases x <;> rfl

/-- A task is for one side. -/
theorem isFor_of_isFor {x : Task ρ η} (here : x.isFor t = true) :
    x.isFor s = decide (t = s) := by
  cases x <;> exact of_decide_eq_true here ▸ rfl

end Task

namespace Call

variable {f : Nat → Nat} {realm : Nat → Side} {s t : Side} {c : Call ρ η}

@[simp] theorem handed?_rename (c : Call ρ η) :
    (c.rename f).handed? = c.handed?.map (Task.rename f) := by
  cases c with
  | submit tasks r => cases tasks <;> rfl
  | _ => rfl

/-- A call hands over tasks for the side that it is about. -/
theorem isFor_of_handed? (inbound : c.inbound realm s = true) {x : Task ρ η}
    (handed : c.handed? = some x) : x.isFor s = true := by
  cases c with
  | submit tasks r =>
    cases tasks with
    | nil => cases handed
    | cons y tasks =>
      cases handed
      rw [Call.inbound, List.all_cons, Bool.and_eq_true] at inbound
      exact inbound.1
  | _ => cases handed

theorem madeOn?_of_inbound (inbound : c.inbound realm s = true) : c.madeOn? = none := by
  cases c with
  | stream => cases inbound
  | _ => rfl

/-- A call works on the endpoint that it is about. -/
theorem side_of_hold? (inbound : c.inbound realm s = true) {l : Link ρ η} {who : Nat} {h : Hold ρ}
    (held : c.hold? l who = some (t, h)) : t = s := by
  cases c with
  | write source token woken =>
    simp only [Call.inbound, Bool.and_eq_true, decide_eq_true_eq] at inbound
    cases woken <;> cases held <;> exact inbound.1
  | shutDown | receive | closeEndpoint =>
    cases held
    exact of_decide_eq_true inbound
  | interruptWake places =>
    cases places with
    | nil => cases held
    | cons p places =>
      cases held
      simp only [Call.inbound, List.all_cons, Bool.and_eq_true, decide_eq_true_eq] at inbound
      exact inbound.1
  | _ => cases held

/-- A call changes the close state that it is about. -/
theorem side_of_closing? (inbound : c.inbound realm s = true) {l : Link ρ η} {who : Nat}
    {closing : Closing η} (changed : c.closing? l who = some (t, closing)) : t = s := by
  cases c with
  | close | closeComplete | onClose | awaitClosed =>
    cases changed
    exact of_decide_eq_true inbound
  | _ => cases changed

end Call

/-! ## Ledgers with other numbers -/

/-- Renames the messages in a ledger. -/
def Ledger.rename (f : Nat → Nat) (g : Ledger ρ) : Ledger ρ :=
  ⟨g.delivered.map f, g.registered, g.dispatched.map (Dispatch.map f)⟩

theorem Ledger.rename_append (f : Nat → Nat) (g g' : Ledger ρ) :
    (g.append g').rename f = (g.rename f).append (g'.rename f) := by
  simp [rename, append]

/-- A message that is not taken is in no ledger. -/
theorem Entry.ledger_named {f : Nat → Nat} {m m' : Nat} {entry : Entry ρ}
    (named : entry.isTaken = true → f m = m') : entry.ledger m' = (entry.ledger m).rename f := by
  cases entry with
  | queued | handed =>
    rw [← named rfl]
    rfl
  | _ => rfl

theorem Entry.delivered_of_isTaken {m : Nat} {entry : Entry ρ} (taken : entry.isTaken = true) :
    (entry.ledger m).delivered ≠ [] := by
  cases entry with
  | queued | handed => exact List.cons_ne_nil _ _
  | _ => cases taken

/-- What is done to a renamed endpoint, and what that adds to the ledger. The message of an attempt
need not have its new name unless it is taken. -/
theorem Endpoint.after_named {f : Nat → Nat} {pick m m' : Nat} {e : Endpoint ρ Nat} {h : Hold ρ}
    (named : ((e.rename f id).ledger pick m' h).delivered ≠ [] → f m = m') :
    (e.rename f id).after pick m' h = (e.after pick m h).rename f id ∧
      (e.rename f id).ledger pick m' h = (e.ledger pick m h).rename f := by
  cases h with
  | enter w interrupted =>
    have taken := fun taken => named (Entry.delivered_of_isTaken taken)
    have attempt := enter_named (e := e) (m := m) taken
    rw [attempt] at taken
    refine ⟨congrArg Prod.fst attempt, ?_⟩
    rw [ledger, attempt]
    exact Entry.ledger_named taken
  | resume w interrupted =>
    have taken := fun taken => named (Entry.delivered_of_isTaken taken)
    have attempt := resume_named (e := e) (m := m) taken
    rw [attempt] at taken
    refine ⟨congrArg Prod.fst attempt, ?_⟩
    rw [ledger, attempt]
    exact Entry.ledger_named taken
  | register r =>
    have registered := register_rename f id pick e r
    refine ⟨congrArg Prod.fst registered, ?_⟩
    rw [ledger, registered, ledger, Prod.map_snd]
    cases (e.register pick r).2 <;> rfl
  | shutDown =>
    have stopped := shutDown_rename f id e
    refine ⟨congrArg Prod.fst stopped, ?_⟩
    rw [ledger, stopped, ledger]
    cases h : e.shutDown.2 <;> simp [Ledger.rename, h]
  | closeOff => exact ⟨closeOff_rename f id e, rfl⟩
  | wakeWriters => exact ⟨wakeWriters_rename f id e, rfl⟩
  | rouse i => exact ⟨by simp [after, rename, Condition.rouse_map], rfl⟩

namespace Link

variable {f : Nat → Nat} {realm : Nat → Side} {s : Side} {l l' : Link ρ η} {pick who : Nat}
  {c : Call ρ η}

/-- A call goes on as one in the same direction, if the registries hold no place but the one that
their tokens belong to. -/
theorem inbound_step (inbound : c.inbound realm s = true)
    (listed : ∀ t tok, l.tokens[t]? = some tok → ∀ p ∈ tok.parked, p = realm t) {c' : Call ρ η}
    (next : (l.step pick who c).2.next? = some c') : c'.inbound realm s = true := by
  cases c with
  | write source token woken =>
    have towards := inbound
    simp only [Call.inbound, Bool.and_eq_true, decide_eq_true_eq] at towards
    obtain ⟨l₀, e, entry, h, -, -⟩ := l.exists_finishWrite pick who source token woken
    rw [step, h] at next
    cases entry with
    | sleeps =>
      cases next
      exact inbound
    | handed r =>
      cases next
      simp [Call.inbound, Task.isFor, towards.1]
    | _ => cases next
  | submit tasks r =>
    rcases tasks with _ | ⟨x, _ | ⟨y, tasks⟩⟩
    · cases next
    · cases next
    · cases next
      rw [Call.inbound, List.all_cons, Bool.and_eq_true] at inbound
      exact inbound.2
  | shutDown source =>
    have towards : source.other = s := of_decide_eq_true inbound
    simp only [step, stepShutDown] at next
    split at next
    · cases next
      simp [Call.inbound, Task.isFor, towards]
    · cases next
  | receive side r =>
    have towards : side = s := of_decide_eq_true inbound
    simp only [step, stepReceive] at next
    split at next
    · cases next
    · cases next
    · cases next
      simp [Call.inbound, Task.isFor, towards]
  | close side =>
    simp only [step] at next
    split at next
    · cases next
      exact inbound
    · cases next
  | closeComplete side =>
    have towards : side = s := of_decide_eq_true inbound
    cases next
    simp [Call.inbound, Task.isFor, towards, List.all_map, Function.comp_def]
  | onClose side h =>
    have towards : side = s := of_decide_eq_true inbound
    simp only [step] at next
    split at next
    · cases next
      simp [Call.inbound, Task.isFor, towards]
    · cases next
  | awaitClosed side =>
    simp only [step] at next
    split at next
    · cases next
    · cases next
      exact inbound
  | interruptCopy t =>
    have mine : realm t = s := of_decide_eq_true inbound
    cases next
    cases found : l.tokens[t]? with
    | none => rfl
    | some tok =>
      simp only [Call.inbound, Option.map_some, Option.getD_some, List.all_eq_true,
        decide_eq_true_eq]
      exact fun p here => (listed t tok found p here).trans mine
  | interruptWake places =>
    cases places with
    | nil => cases next
    | cons p places =>
      cases next
      rw [Call.inbound, List.all_cons, Bool.and_eq_true] at inbound
      exact inbound.2
  | closeEndpoint | closeReport | closeNotify | interrupt =>
    cases next
    exact inbound
  | raise | await | stream | report => cases inbound
  | _ => cases next

/-- Two links agree on what callers of the direction towards `s` see, up to the numbers of
messages. -/
structure Beside (f : Nat → Nat) (realm : Nat → Side) (s : Side) (l' l : Link ρ η) : Prop where
  endpoint : l.endpoint s = (l'.endpoint s).rename f id
  closing : l.closing s = l'.closing s
  tokens : ∀ t, realm t = s → l.tokens[t]? = l'.tokens[t]?
  tasks : l.tasks.filter (Task.isFor s) = l'.tasks.map (Task.rename f)

namespace Beside

variable (beside : Beside f realm s l' l)

include beside

theorem isInterrupted_eq {token : Option Nat} (mine : (token.all fun t => realm t = s) = true) :
    l.isInterrupted token = l'.isInterrupted token := by
  cases token with
  | none => rfl
  | some t => simp only [isInterrupted, Option.bind_some, beside.tokens t (of_decide_eq_true mine)]

theorem isAsleep_eq (inbound : c.inbound realm s = true) :
    l.isAsleep who (c.rename f) = l'.isAsleep who c := by
  cases c with
  | write source token woken =>
    simp only [Call.inbound, Bool.and_eq_true, decide_eq_true_eq] at inbound
    simp [isAsleep, Call.rename, inbound.1, beside.endpoint, Endpoint.rename, Condition.map]
  | awaitClosed side =>
    obtain rfl : side = s := of_decide_eq_true inbound
    simp [isAsleep, Call.rename, beside.closing]
  | await | stream => cases inbound
  | _ => rfl

theorem hold?_eq (inbound : c.inbound realm s = true) :
    (c.rename f).hold? l who = c.hold? l' who := by
  cases c with
  | write source token woken =>
    have flag : l.isInterrupted token = l'.isInterrupted token :=
      beside.isInterrupted_eq ((Bool.and_eq_true _ _).mp inbound).2
    cases woken <;> simp only [Call.rename, Call.hold?, flag]
  | interruptWake places => cases places <;> rfl
  | _ => rfl

theorem closing?_eq (inbound : c.inbound realm s = true) :
    (c.rename f).closing? l who = c.closing? l' who := by
  cases c with
  | close side | closeComplete side | onClose side h | awaitClosed side =>
    obtain rfl : side = s := of_decide_eq_true inbound
    simp only [Call.rename, Call.closing?, beside.closing]
  | _ => rfl

theorem modifyToken? (token : Option Nat) (f' : Token Side → Token Side) :
    Beside f realm s (l'.modifyToken? token f') (l.modifyToken? token f') where
  endpoint := by simpa using beside.endpoint
  closing := by simpa using beside.closing
  tokens t mine := by
    rw [getElem?_modifyToken?, getElem?_modifyToken?, beside.tokens t mine]
  tasks := by simpa using beside.tasks

/-- What comes of an attempt to write, with other numbers. -/
theorem finishWrite {source : Side} {token : Option Nat} {e : Endpoint ρ Nat} {entry : Entry ρ}
    (named : entry.isTaken = true → f l'.messages.size = l.messages.size) :
    (l.finishWrite source token (e.rename f id) entry).2 =
        (l'.finishWrite source token e entry).2.rename f ∧
      ∀ t, realm t = s → (l.finishWrite source token (e.rename f id) entry).1.tokens[t]? =
        (l'.finishWrite source token e entry).1.tokens[t]? := by
  cases entry with
  | sleeps =>
    refine ⟨rfl, fun t mine => ?_⟩
    simp only [Link.finishWrite, getElem?_modifyToken?, tokens_setEndpoint, beside.tokens t mine]
  | refused why => exact ⟨rfl, beside.tokens⟩
  | queued | handed =>
    refine ⟨?_, beside.tokens⟩
    simp [Link.finishWrite, Progress.rename, Call.rename, Reply.rename, Task.rename, Dispatch.map,
      Delivery.map, Except.map, setEndpoint, named rfl]

/-- A write towards `s` comes to the same, with other numbers. -/
theorem stepWrite {source : Side} {token : Option Nat} {woken : Bool}
    (inbound : (.write source token woken : Call ρ η).inbound realm s = true)
    (named : (Ledger.ofHistory s (l.events pick who (.write source token woken))).delivered ≠ [] →
      f l'.messages.size = l.messages.size) :
    (l.stepWrite pick who source token woken).2 =
        (l'.stepWrite pick who source token woken).2.rename f ∧
      ∀ t, realm t = s → (l.stepWrite pick who source token woken).1.tokens[t]? =
        (l'.stepWrite pick who source token woken).1.tokens[t]? := by
  rw [Call.inbound, Bool.and_eq_true] at inbound
  have towards : source.other = s := of_decide_eq_true inbound.1
  have flag := beside.isInterrupted_eq inbound.2
  cases woken with
  | false =>
    have taken : ((l.endpoint source.other).enter pick ⟨who, token⟩ (l.isInterrupted token)
        l.messages.size).2.isTaken = true → f l'.messages.size = l.messages.size := by
      intro taken
      apply named
      rw [ledger_write l (stepWrite_first l pick who source token) rfl, if_pos towards]
      exact Entry.delivered_of_isTaken taken
    rw [towards, beside.endpoint] at taken
    have attempt := Endpoint.enter_named taken
    rw [stepWrite_first, stepWrite_first, towards, beside.endpoint, attempt, flag]
    rw [attempt, flag] at taken
    exact beside.finishWrite taken
  | true =>
    have taken : ((l.endpoint source.other).resume pick ⟨who, token⟩ (l.isInterrupted token)
        l.messages.size).2.isTaken = true → f l'.messages.size = l.messages.size := by
      intro taken
      apply named
      have size := congrArg Array.size (messages_modifyToken? l token (·.unpark source.other))
      rw [ledger_write l (stepWrite_woken l pick who source token) size, if_pos towards]
      exact Entry.delivered_of_isTaken taken
    rw [towards, beside.endpoint] at taken
    have attempt := Endpoint.resume_named taken
    rw [stepWrite_woken, stepWrite_woken, towards, beside.endpoint, attempt, flag]
    rw [attempt, flag] at taken
    refine (beside.modifyToken? token _).finishWrite ?_
    simpa using taken

section Step

variable (inbound : c.inbound realm s = true)
  (named : (Ledger.ofHistory s (l.events pick who (c.rename f))).delivered ≠ [] →
    f l'.messages.size = l.messages.size)

include inbound named

/-- The tokens of `s` change alike. -/
theorem tokens_step {t : Nat} (mine : realm t = s) :
    (l.step pick who (c.rename f)).1.tokens[t]? = (l'.step pick who c).1.tokens[t]? := by
  cases writes : c.isWrite with
  | true =>
    cases c with
    | write source token woken => exact (beside.stepWrite inbound named).2 t mine
    | _ => cases writes
  | false =>
    have writes' : (c.rename f).isWrite = false := by cases c <;> exact writes
    rw [(l.step_frame pick who writes').1, (l'.step_frame pick who writes).1]
    cases c with
    | interrupt u | clear u => simp [Call.rename, Array.getElem?_modify, beside.tokens t mine]
    | _ => exact beside.tokens t mine

/-- What a step comes to, with other numbers. -/
theorem outcome_step :
    (l.step pick who (c.rename f)).2 = (l'.step pick who c).2.rename f := by
  cases c with
  | write source token woken => exact (beside.stepWrite inbound named).1
  | submit tasks r =>
    match tasks with
    | [] => rfl
    | [x] => rfl
    | x :: y :: tasks => rfl
  | shutDown source =>
    obtain rfl : source.other = s := of_decide_eq_true inbound
    simp only [Call.rename, Link.step, stepShutDown, beside.endpoint, Endpoint.shutDown_rename,
      Prod.map_snd]
    cases (l'.endpoint source.other).shutDown.2 <;> rfl
  | receive side r =>
    obtain rfl : side = s := of_decide_eq_true inbound
    simp only [Call.rename, Link.step, stepReceive, beside.endpoint, Endpoint.register_rename,
      Prod.map_snd]
    cases ((l'.endpoint side).register pick r).2 <;> rfl
  | close side | onClose side h | awaitClosed side =>
    obtain rfl : side = s := of_decide_eq_true inbound
    simp only [Call.rename, Link.step, beside.closing]
    split <;> rfl
  | closeComplete side =>
    obtain rfl : side = s := of_decide_eq_true inbound
    simp only [Call.rename, Link.step, beside.closing, Progress.rename, List.map_map]
    rfl
  | isOpen side =>
    obtain rfl : side = s := of_decide_eq_true inbound
    simp only [Call.rename, Link.step, beside.closing]
    rfl
  | interruptCopy t =>
    simp only [Call.rename, Link.step, beside.tokens t (of_decide_eq_true inbound)]
    rfl
  | interruptWake places => cases places <;> rfl
  | clear t | isInterrupted t =>
    have flag : l.isInterrupted (some t) = l'.isInterrupted (some t) :=
      beside.isInterrupted_eq inbound
    simp only [Call.rename, Link.step, flag]
    rfl
  | raise | await | stream | report => cases inbound
  | interrupt | closeEndpoint | closeReport | closeNotify => rfl

/-- Whoever goes towards `s` does the same on both links, with other numbers. -/
theorem step :
    (l.step pick who (c.rename f)).2 = (l'.step pick who c).2.rename f ∧
      Beside f realm s (l'.step pick who c).1 (l.step pick who (c.rename f)).1 ∧
      Ledger.ofHistory s (l.events pick who (c.rename f)) =
        (Ledger.ofHistory s (l'.events pick who c)).rename f := by
  have outcome := beside.outcome_step inbound named
  have tokens := fun t => beside.tokens_step (t := t) inbound named
  have hold : (c.rename f).hold? l who = c.hold? l' who := beside.hold?_eq inbound
  have closing : (c.rename f).closing? l who = c.closing? l' who := beside.closing?_eq inbound
  rw [ledger_step, hold] at named
  refine ⟨outcome, ⟨?_, ?_, tokens, ?_⟩, ?_⟩
  · rw [endpoint_step, endpoint_step, hold]
    cases held : c.hold? l' who with
    | none => exact beside.endpoint
    | some place =>
      obtain ⟨t, h⟩ := place
      obtain rfl := Call.side_of_hold? inbound held
      simp only [held, if_true, beside.endpoint] at named ⊢
      exact (Endpoint.after_named named).1
  · rw [closing_step, closing_step, closing]
    cases changed : c.closing? l' who with
    | none => exact beside.closing
    | some place =>
      obtain ⟨t, after⟩ := place
      obtain rfl := Call.side_of_closing? inbound changed
      simp only [if_true]
  · rw [tasks_step, tasks_step, List.filter_append, List.map_append, beside.tasks,
      Call.handed?_rename]
    cases handed : c.handed? with
    | none => rfl
    | some x => simp [Call.isFor_of_handed? inbound handed]
  · rw [ledger_step, ledger_step, hold]
    cases held : c.hold? l' who with
    | none => rfl
    | some place =>
      obtain ⟨t, h⟩ := place
      obtain rfl := Call.side_of_hold? inbound held
      simp only [held, if_true, beside.endpoint] at named ⊢
      exact (Endpoint.after_named named).2

end Step

theorem rouse (inbound : c.inbound realm s = true) :
    Beside f realm s (l'.rouse who c) (l.rouse who (c.rename f)) := by
  have tokens : ∀ t, realm t = s →
      (l.rouse who (c.rename f)).tokens[t]? = (l'.rouse who c).tokens[t]? := by
    intro t mine
    rw [tokens_rouse, tokens_rouse, beside.tokens t mine]
  have tasks : (l.rouse who (c.rename f)).tasks.filter (Task.isFor s) =
      (l'.rouse who c).tasks.map (Task.rename f) := by
    rw [tasks_rouse, tasks_rouse, beside.tasks]
  cases c with
  | write source token woken =>
    simp only [Call.inbound, Bool.and_eq_true, decide_eq_true_eq] at inbound
    obtain rfl := inbound.1
    refine ⟨?_, ?_, tokens, tasks⟩
    · simp only [Call.rename, Link.rouse, endpoint_setEndpoint, beside.endpoint, Endpoint.rename]
      rw [Condition.rouseWhere_map (p := (·.caller == who))]
      intro w
      rfl
    · simpa [Call.rename, Link.rouse] using beside.closing
  | awaitClosed side =>
    obtain rfl : side = s := of_decide_eq_true inbound
    refine ⟨?_, ?_, tokens, tasks⟩
    · simpa [Call.rename, Link.rouse] using beside.endpoint
    · simp [Call.rename, Link.rouse, beside.closing]
  | await | stream => cases inbound
  | _ => exact ⟨beside.endpoint, beside.closing, tokens, tasks⟩

section Other

variable {t : Side} (other : c.inbound realm t = true) (apart : t ≠ s)

include other apart

/-- Whoever goes the other way does nothing that callers of the direction towards `s` see. -/
theorem step_other (pick : Nat) :
    Beside f realm s l' (l.step pick who c).1 ∧
      Ledger.ofHistory s (l.events pick who c) = .empty := by
  have elsewhere : ∀ u, realm u = s → realm u ≠ t := fun u mine there =>
    apart (there.symm.trans mine)
  have tokens : ∀ u, realm u = s → (l.step pick who c).1.tokens[u]? = l.tokens[u]? := by
    intro u mine
    cases writes : c.isWrite with
    | true =>
      cases c with
      | write source token woken =>
        simp only [Call.inbound, Bool.and_eq_true, decide_eq_true_eq] at other
        have under : token ≠ some u := by
          rintro rfl
          exact elsewhere u mine (of_decide_eq_true other.2)
        have finished : ∀ (l : Link ρ η) e entry,
            (l.finishWrite source token e entry).1.tokens[u]? = l.tokens[u]? := by
          intro l e entry
          cases entry with
          | sleeps => simp [Link.finishWrite, getElem?_modifyToken?, under]
          | _ => rfl
        cases woken with
        | false => rw [Link.step, stepWrite_first, finished]
        | true =>
          rw [Link.step, stepWrite_woken, finished, getElem?_modifyToken?, if_neg under]
      | _ => cases writes
    | false =>
      rw [(l.step_frame pick who writes).1]
      cases c with
      | interrupt v | clear v =>
        have under : v ≠ u := by
          rintro rfl
          exact elsewhere v mine (of_decide_eq_true other)
        simp [Array.getElem?_modify, under]
      | _ => rfl
  refine ⟨⟨?_, ?_, fun u mine => (tokens u mine).trans (beside.tokens u mine), ?_⟩, ?_⟩
  · rw [endpoint_step]
    cases held : c.hold? l who with
    | none => exact beside.endpoint
    | some place =>
      obtain ⟨t', h⟩ := place
      obtain rfl := Call.side_of_hold? other held
      simp only [apart.symm, if_false]
      exact beside.endpoint
  · rw [closing_step]
    cases changed : c.closing? l who with
    | none => exact beside.closing
    | some place =>
      obtain ⟨t', after⟩ := place
      obtain rfl := Call.side_of_closing? other changed
      simp only [apart.symm, if_false]
      exact beside.closing
  · rw [tasks_step, List.filter_append, beside.tasks, List.append_right_eq_self]
    cases handed : c.handed? with
    | none => rfl
    | some x =>
      have there := Task.isFor_of_isFor (s := s) (Call.isFor_of_handed? other handed)
      simp [there, apart]
  · rw [ledger_step]
    cases held : c.hold? l who with
    | none => rfl
    | some place =>
      obtain ⟨t', h⟩ := place
      obtain rfl := Call.side_of_hold? other held
      simp only [apart.symm, if_false]

theorem rouse_other : Beside f realm s l' (l.rouse who c) := by
  have tokens : ∀ u, realm u = s → (l.rouse who c).tokens[u]? = l'.tokens[u]? := by
    intro u mine
    rw [tokens_rouse, beside.tokens u mine]
  have tasks : (l.rouse who c).tasks.filter (Task.isFor s) = l'.tasks.map (Task.rename f) := by
    rw [tasks_rouse, beside.tasks]
  cases c with
  | write source token woken =>
    simp only [Call.inbound, Bool.and_eq_true, decide_eq_true_eq] at other
    obtain rfl := other.1
    refine ⟨?_, ?_, tokens, tasks⟩
    · rw [Link.rouse, endpoint_setEndpoint_of_ne _ apart.symm, beside.endpoint]
    · simpa [Link.rouse] using beside.closing
  | awaitClosed side =>
    obtain rfl : side = t := of_decide_eq_true other
    refine ⟨?_, ?_, tokens, tasks⟩
    · simpa [Link.rouse] using beside.endpoint
    · simp [Link.rouse, closing_setClosing_eq, apart.symm, beside.closing]
  | await | stream => cases other
  | _ => exact ⟨beside.endpoint, beside.closing, tokens, tasks⟩

end Other

end Beside

/-- The message that a call towards `s` adds is delivered there. -/
theorem size_step_inbound (inbound : c.inbound realm s = true) :
    (l.step pick who c).1.messages.size =
      l.messages.size + (Ledger.ofHistory s (l.events pick who c)).delivered.length := by
  rcases l.delivered_step pick who c s with ⟨none, -⟩ | ⟨one, size⟩
  · rw [none]
    cases writes : c.isWrite with
    | true =>
      cases c with
      | write source token woken =>
        simp only [Call.inbound, Bool.and_eq_true, decide_eq_true_eq] at inbound
        obtain ⟨l₀, e, entry, h, same, -⟩ := l.exists_finishWrite pick who source token woken
        rw [ledger_write l h (congrArg Array.size same), if_pos inbound.1] at none
        rw [Link.step, h, messages_finishWrite, same]
        cases taken : entry.isTaken with
        | true => exact absurd none (Entry.delivered_of_isTaken taken)
        | false => rfl
      | _ => cases writes
    | false =>
      rw [(l.step_frame pick who writes).2.1]
      cases c with
      | stream => cases inbound
      | _ => rfl
  · rw [one, size]
    rfl

end Link

end Loopback
