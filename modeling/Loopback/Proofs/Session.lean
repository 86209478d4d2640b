import Loopback.Proofs.Schedule
import Mathlib.Logic.Function.Basic

/-!
# Sessions at two ends

A pipe and a message have two ends, and each end is used by one call at a time. A session is such a
thing with the call in progress at each end. What happens next is up to a schedule: a call begins at
an idle end, a caller that is awake takes one step, or a sleeper wakes without a notification. The
history of a schedule lists what took effect, each step with the state that it found
(`Session.history`). `Session.Can` says what can happen in a session; what holds at the start and is
kept by all that can happen holds after every schedule (`Session.run_induction`).
-/

namespace Loopback

/-- Something with two ends, at which calls of type `κ` are carried out in steps. -/
class TwoEnded (σ : Type) (κ : outParam Type) where
  /-- One step of a call at an end. -/
  step : PipeEnd → κ → σ → σ × Progress κ Result
  /-- The caller at an end is asleep. -/
  isAsleep : PipeEnd → σ → Bool
  /-- The caller at an end wakes without a notification. -/
  rouse : PipeEnd → σ → σ
  /-- The call can begin at the end. -/
  mayBegin : PipeEnd → κ → Bool

instance : TwoEnded Pipe PipeCall where
  step e c p := p.step e.caller c
  isAsleep e p := p.isAsleep e.caller
  rouse e p := p.rouse e.caller
  mayBegin e c := c.madeOn == e

/-- Either end can tell whether the message was cancelled. -/
instance : TwoEnded Message MessageCall where
  step e c m := m.step e.caller c
  isAsleep e m := m.pipe.isAsleep e.caller
  rouse e m := { m with pipe := m.pipe.rouse e.caller }
  mayBegin e c := c.isEntry && (c.madeOn? == some e || c.madeOn? == none)

/-- A call in progress: what was begun, and as what it goes on. -/
structure Ongoing (κ : Type) where
  begun : κ
  stage : κ

/-- Something with two ends, and the calls in progress at them. -/
structure Session (σ κ : Type) where
  state : σ
  calls : PipeEnd → Option (Ongoing κ)

namespace Session

/-- What a schedule asks for next. -/
inductive Move (κ : Type) where
  | begin (e : PipeEnd) (c : κ)
  | step (e : PipeEnd)
  | rouse (e : PipeEnd)

/-- A step of the call at one end, and the state that it finds. -/
structure Step (σ κ : Type) where
  on : PipeEnd
  begun : κ
  stage : κ
  before : σ

/-- What took effect. -/
inductive Event (σ κ : Type) where
  | began (e : PipeEnd) (c : κ)
  | stepped (x : Step σ κ)
  | roused (e : PipeEnd)

variable {σ κ : Type}

/-- The step that took effect, if that is what happened. -/
def Event.step? : Event σ κ → Option (Step σ κ)
  | .stepped x => some x
  | _ => none

/-- A sleeper woke without a notification. -/
def Event.isRousing : Event σ κ → Bool
  | .roused _ => true
  | _ => false

/-- The steps of a history, oldest first. -/
def steps (h : List (Event σ κ)) : List (Step σ κ) := h.filterMap Event.step?

theorem steps_stepped (h : List (Event σ κ)) (x : Step σ κ) :
    steps (h ++ [.stepped x]) = steps h ++ [x] :=
  List.filterMap_append

theorem steps_began (h : List (Event σ κ)) (e : PipeEnd) (c : κ) :
    steps (h ++ [.began e c]) = steps h :=
  List.filterMap_append.trans (List.append_nil _)

theorem steps_roused (h : List (Event σ κ)) (e : PipeEnd) :
    steps (h ++ [.roused e]) = steps h :=
  List.filterMap_append.trans (List.append_nil _)

/-- A call that begins after the history `h` is allowed. -/
def Event.isAllowed (allowed : List (Event σ κ) → PipeEnd → κ → Bool) (h : List (Event σ κ)) :
    Event σ κ → Bool
  | .began e c => allowed h e c
  | _ => true

/-- Every call of the history is allowed by what happened before it; `front` happened before all. -/
def keeps (allowed : List (Event σ κ) → PipeEnd → κ → Bool) :
    List (Event σ κ) → List (Event σ κ) → Bool
  | _, [] => true
  | front, ev :: h => ev.isAllowed allowed front && keeps allowed (front ++ [ev]) h

theorem keeps_concat (allowed : List (Event σ κ) → PipeEnd → κ → Bool)
    (front h : List (Event σ κ)) (ev : Event σ κ) :
    keeps allowed front (h ++ [ev]) =
      (keeps allowed front h && ev.isAllowed allowed (front ++ h)) := by
  induction h generalizing front with
  | nil => simp [keeps]
  | cons first h ih => simp [keeps, ih, Bool.and_assoc]

/-- Nothing is in progress. -/
def create (state : σ) : Session σ κ := ⟨state, fun _ => none⟩

variable [TwoEnded σ κ]

/-- The state after the step. -/
def Step.after (x : Step σ κ) : σ := (TwoEnded.step x.on x.stage x.before).1

/-- What the step leads to. -/
def Step.outcome (x : Step σ κ) : Progress κ Result := (TwoEnded.step x.on x.stage x.before).2

/-- The next step at an end, when a caller is there and awake. -/
def next? (e : PipeEnd) (s : Session σ κ) : Option (Step σ κ) :=
  match s.calls e with
  | none => none
  | some c => if TwoEnded.isAsleep e s.state then none else some ⟨e, c.begun, c.stage, s.state⟩

/-- What takes effect when the schedule asks for `mv`; what is not possible takes none. -/
def event? (s : Session σ κ) : Move κ → Option (Event σ κ)
  | .begin e c =>
      if (s.calls e).isNone && TwoEnded.mayBegin (σ := σ) e c then some (.began e c) else none
  | .step e => (s.next? e).map .stepped
  | .rouse e => if TwoEnded.isAsleep e s.state then some (.roused e) else none

/-- The session after something took effect. -/
def after (s : Session σ κ) : Event σ κ → Session σ κ
  | .began e c => { s with calls := Function.update s.calls e (some ⟨c, c⟩) }
  | .stepped x =>
      ⟨x.after, Function.update s.calls x.on (x.outcome.next?.map fun c => ⟨x.begun, c⟩)⟩
  | .roused e => { s with state := TwoEnded.rouse e s.state }

/-- The session after one move. -/
def move (s : Session σ κ) (mv : Move κ) : Session σ κ := (s.event? mv).elim s s.after

/-- The session after a schedule. -/
def run (s : Session σ κ) (schedule : List (Move κ)) : Session σ κ := schedule.foldl move s

/-- What took effect along a schedule, oldest first. -/
def history (s : Session σ κ) : List (Move κ) → List (Event σ κ)
  | [] => []
  | mv :: schedule => (s.event? mv).toList ++ (s.move mv).history schedule

/-- What can happen next in a session. -/
inductive Can (s : Session σ κ) : Event σ κ → Prop where
  | begins {e : PipeEnd} {c : κ} (idle : s.calls e = none)
      (may : TwoEnded.mayBegin (σ := σ) e c = true) : Can s (.began e c)
  | steps {e : PipeEnd} {begun stage : κ} (now : s.calls e = some ⟨begun, stage⟩)
      (awake : TwoEnded.isAsleep e s.state = false) : Can s (.stepped ⟨e, begun, stage, s.state⟩)
  | rouses {e : PipeEnd} (asleep : TwoEnded.isAsleep e s.state = true) : Can s (.roused e)

variable {s : Session σ κ} {e : PipeEnd}

theorem next?_eq_some {x : Step σ κ} (h : s.next? e = some x) :
    ∃ begun stage, x = ⟨e, begun, stage, s.state⟩ ∧ s.calls e = some ⟨begun, stage⟩ ∧
      TwoEnded.isAsleep e s.state = false := by
  unfold next? at h
  split at h
  · exact absurd h.symm (Option.some_ne_none _)
  · next c now =>
    split at h
    · exact absurd h.symm (Option.some_ne_none _)
    · next awake => exact ⟨_, _, (Option.some.inj h).symm, now, Bool.eq_false_iff.2 awake⟩

/-- Whatever takes effect could happen. -/
theorem can_of_event? {mv : Move κ} {ev : Event σ κ} (h : s.event? mv = some ev) : s.Can ev := by
  cases mv with
  | begin e c =>
    simp only [event?, Option.ite_none_right_eq_some, Bool.and_eq_true,
      Option.isNone_iff_eq_none] at h
    obtain ⟨⟨idle, may⟩, h⟩ := h
    cases h
    exact .begins idle may
  | step e =>
    obtain ⟨x, hx, rfl⟩ := Option.map_eq_some_iff.1 h
    obtain ⟨begun, stage, rfl, now, awake⟩ := next?_eq_some hx
    exact .steps now awake
  | rouse e =>
    simp only [event?, Option.ite_none_right_eq_some] at h
    obtain ⟨asleep, h⟩ := h
    cases h
    exact .rouses asleep

/-- Whatever can happen is asked for by some move. -/
theorem Can.asked {ev : Event σ κ} (can : s.Can ev) : ∃ mv, s.event? mv = some ev := by
  cases can with
  | @begins e c idle may => exact ⟨.begin e c, by simp [event?, idle, may]⟩
  | @steps e begun stage now awake => exact ⟨.step e, by simp [event?, next?, now, awake]⟩
  | @rouses e asleep => exact ⟨.rouse e, by simp [event?, asleep]⟩

theorem calls_began_self (c : κ) : (s.after (.began e c)).calls e = some ⟨c, c⟩ :=
  Function.update_self ..

theorem calls_began_of_ne {e' : PipeEnd} (other : e' ≠ e) (c : κ) :
    (s.after (.began e c)).calls e' = s.calls e' :=
  Function.update_of_ne other ..

theorem calls_stepped_self (x : Step σ κ) :
    (s.after (.stepped x)).calls x.on = x.outcome.next?.map fun c => ⟨x.begun, c⟩ :=
  Function.update_self ..

theorem calls_stepped_of_ne {x : Step σ κ} {e' : PipeEnd} (other : e' ≠ x.on) :
    (s.after (.stepped x)).calls e' = s.calls e' :=
  Function.update_of_ne other ..

omit [TwoEnded σ κ] in
/-- What an end has in progress after a change at `e`: what came in there, or what was there
before. -/
theorem eq_of_update {calls : PipeEnd → Option (Ongoing κ)} {new : Option (Ongoing κ)}
    {e' : PipeEnd} {o : Ongoing κ} (h : Function.update calls e new e' = some o) :
    (e' = e ∧ new = some o) ∨ (e' ≠ e ∧ calls e' = some o) := by
  by_cases here : e' = e
  · subst here
    rw [Function.update_self] at h
    exact .inl ⟨rfl, h⟩
  · rw [Function.update_of_ne here] at h
    exact .inr ⟨here, h⟩

/-- A call in progress after one began is that one, or was in progress before. -/
theorem eq_of_calls_began {e' : PipeEnd} {c : κ} {o : Ongoing κ}
    (h : (s.after (.began e c)).calls e' = some o) :
    (e' = e ∧ o = ⟨c, c⟩) ∨ (e' ≠ e ∧ s.calls e' = some o) := by
  rcases eq_of_update h with ⟨here, new⟩ | before
  · exact .inl ⟨here, (Option.some.inj new).symm⟩
  · exact .inr before

/-- A call in progress after a step is what is left of the call that took it, or another one. -/
theorem eq_of_calls_stepped {x : Step σ κ} {e' : PipeEnd} {o : Ongoing κ}
    (h : (s.after (.stepped x)).calls e' = some o) :
    (e' = x.on ∧ ∃ c, x.outcome.next? = some c ∧ o = ⟨x.begun, c⟩) ∨
      (e' ≠ x.on ∧ s.calls e' = some o) := by
  rcases eq_of_update h with ⟨here, new⟩ | before
  · obtain ⟨c, onward, rfl⟩ := Option.map_eq_some_iff.1 new
    exact .inl ⟨here, c, onward, rfl⟩
  · exact .inr before

/-- What holds at the start of a run and is kept by all that can happen holds after every schedule.
The history so far is at hand. -/
theorem run_induction {P : List (Event σ κ) → Session σ κ → Prop} {s : Session σ κ}
    (start : P [] s) (step : ∀ {h s ev}, P h s → s.Can ev → P (h ++ [ev]) (s.after ev))
    (schedule : List (Move κ)) : P (s.history schedule) (s.run schedule) := by
  -- By induction on what is left of the schedule, after any history `h`.
  have onward : ∀ (schedule : List (Move κ)) (h : List (Event σ κ)) (s : Session σ κ),
      P h s → P (h ++ s.history schedule) (s.run schedule) := by
    intro schedule
    induction schedule with
    | nil =>
      intro h s holds
      rw [history, List.append_nil]
      exact holds
    | cons mv schedule ih =>
      intro h s holds
      rw [history, ← List.append_assoc]
      apply ih
      cases took : s.event? mv with
      | none => simpa [move, took] using holds
      | some ev => simpa [move, took] using step holds (can_of_event? took)
  exact onward schedule [] s start

end Session

end Loopback
