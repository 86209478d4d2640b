import Loopback.Proofs.Frame
import Loopback.Proofs.History
import Mathlib.Data.List.Nodup

/-!
# One move of a machine, and every run

A machine is orderly when nobody is in two calls, no end of a message is used by two calls, and
every call on a message is at a stage that a call can reach. `Machine.Moves` says once what a move
does to the link and to the calls in progress, and `Machine.moves` that a move of an orderly machine
does just that. What holds at the start and is kept by `Machine.Moves` holds after every schedule,
with the history of the schedule at hand (`Machine.run_induction`).
-/

namespace Loopback

/-- The call as which a call goes on, unless it is over. -/
def Progress.next? {κ α : Type} : Progress κ α → Option κ
  | .more c | .asleep c => some c
  | .done _ => none

/-- The same outcome of a call that is part of another. -/
def Progress.map {κ ι α : Type} (f : κ → ι) : Progress κ α → Progress ι α
  | .more c => .more (f c)
  | .asleep c => .asleep (f c)
  | .done r => .done r

@[simp] theorem Progress.next?_map {κ ι α : Type} (f : κ → ι) (p : Progress κ α) :
    (p.map f).next? = p.next?.map f := by
  cases p <;> rfl

/-! ## Looking up by name -/

section Lookup

variable {α : Type} {xs : List (Nat × α)} {who : Nat} {a : α}

/-- Where nobody is named twice, the entry of `who` stands apart from those of the others. -/
theorem eq_append_of_lookup (names : (xs.map Prod.fst).Nodup) (here : xs.lookup who = some a) :
    ∃ front back, xs = front ++ (who, a) :: back ∧ ∀ x ∈ front ++ back, x.1 ≠ who := by
  obtain ⟨front, back, parts, -⟩ := List.lookup_eq_some_iff.1 here
  refine ⟨front, back, parts, ?_⟩
  intro x hx same
  -- A second entry would repeat the name.
  rw [parts, List.map_append, List.map_cons, List.nodup_middle, List.nodup_cons,
    ← List.map_append] at names
  exact names.1 (List.mem_map.2 ⟨x, hx, same⟩)

/-- Whoever has an entry is found under it. -/
theorem lookup_of_mem (names : (xs.map Prod.fst).Nodup) (here : (who, a) ∈ xs) :
    xs.lookup who = some a := by
  cases found : xs.lookup who with
  | none => simpa using List.lookup_eq_none_iff.1 found _ here
  | some b =>
    obtain ⟨front, back, parts, -⟩ := eq_append_of_lookup names found
    have there : (who, b) ∈ xs := by simp [parts]
    rw [(Prod.mk.inj (List.inj_on_of_nodup_map names there here rfl)).2]

end Lookup

/-! ## Stages of a call -/

/-- A stage that a call on a message can reach: the pipe is used under the rule of the operation, or
the end is let go of. -/
def MessageCall.Staged : MessageCall → Prop
  | .inPipe rule c => rule = c.flagRule ∨ (rule = .ignores ∧ c = c.madeOn.letGo)
  | _ => True

/-- A stage that a call can reach. -/
def Call.Staged {ρ η : Type} : Call ρ η → Prop
  | .stream _ c => c.Staged
  | _ => True

theorem MessageCall.staged_of_isEntry {c : MessageCall} (h : c.isEntry = true) : c.Staged := by
  cases c with
  | inPipe rule c =>
    cases rule with
    | ignores => exact .inr ⟨rfl, eq_of_beq h⟩
    | _ => simp [isEntry] at h
  | _ => trivial

theorem Call.staged_of_isEntry {ρ η : Type} {c : Call ρ η} (h : c.isEntry = true) : c.Staged := by
  cases c with
  | stream k c => exact MessageCall.staged_of_isEntry h
  | _ => trivial

/-- A call on a pipe is never half done: it sleeps and starts over, or it is answered. -/
theorem Pipe.step_progress (who : Nat) (c : PipeCall) (p : Pipe) :
    (p.step who c).2 = .asleep c ∨ ∃ r, (p.step who c).2 = .done r := by
  -- The three operations that may wait differ only in their answer.
  have turn : ∀ {α : Type} (reply : α → Reply) (t : Turn (Except Failure α)),
      progress c reply t = .asleep c ∨ ∃ r, progress c reply t = .done r := by
    intro α reply t
    cases t with
    | sleeps => exact .inl rfl
    | returns r => exact .inr ⟨_, rfl⟩
  cases c with
  | write data => exact turn _ _
  | read limit => exact turn _ _
  | skip count => exact turn _ _
  | _ => exact .inr ⟨_, rfl⟩

namespace Message

/-- After the pipe a call starts over, settles, or raises the flag. -/
theorem next_stepPipe {who : Nat} {rule : FlagRule} {c : PipeCall} {m : Message}
    {c' : MessageCall} (h : (m.stepPipe who rule c).2.next? = some c') :
    c' = .inPipe rule c ∨ (rule = .checksTwice ∧ ∃ r, c' = .settle r) ∨
      (rule = .cancelsOnFailure ∧ ∃ r, c' = .raiseFlag r) := by
  simp only [stepPipe] at h
  rcases Pipe.step_progress who c m.pipe with hp | ⟨r, hp⟩
  · rw [hp] at h
    exact .inl (Option.some.inj h).symm
  · rw [hp] at h
    cases rule with
    | checksTwice => exact .inr (.inl ⟨rfl, r, (Option.some.inj h).symm⟩)
    | cancelsOnFailure =>
      cases r with
      | error e => exact .inr (.inr ⟨rfl, _, (Option.some.inj h).symm⟩)
      | ok reply => simp [MessageCall.afterPipe, Progress.next?] at h
    | _ => simp [MessageCall.afterPipe, Progress.next?] at h

theorem next_stepPipe_staged {who : Nat} {rule : FlagRule} {c : PipeCall} {m : Message}
    {c' : MessageCall} (staged : (MessageCall.inPipe rule c).Staged)
    (h : (m.stepPipe who rule c).2.next? = some c') :
    c'.madeOn? = some c.madeOn ∧ c'.Staged := by
  rcases next_stepPipe h with rfl | ⟨rfl, r, rfl⟩ | ⟨rfl, r, rfl⟩
  · exact ⟨rfl, staged⟩
  · obtain hr | ⟨hr, -⟩ := staged
    · cases c <;> simp [PipeCall.flagRule] at hr <;> exact ⟨rfl, trivial⟩
    · exact FlagRule.noConfusion hr
  · obtain hr | ⟨hr, -⟩ := staged
    · cases c <;> simp [PipeCall.flagRule] at hr <;> exact ⟨rfl, trivial⟩
    · exact FlagRule.noConfusion hr

/-- A call on a message stays on the end it was made on. -/
theorem next_step {who : Nat} {c c' : MessageCall} {m : Message} (staged : c.Staged)
    (h : (m.step who c).2.next? = some c') : c'.madeOn? = c.madeOn? ∧ c'.Staged := by
  cases c with
  | start c =>
    have own : (MessageCall.inPipe c.flagRule c).Staged := .inl rfl
    simp only [step] at h
    split at h
    · next hr => exact next_stepPipe_staged (hr ▸ own) h
    · next hr => exact next_stepPipe_staged (hr ▸ own) h
    -- A reader looks at the flag before it touches the pipe.
    · by_cases hm : m.cancelled = true
      · simp [hm, Progress.next?] at h
      · simp only [hm, Bool.false_eq_true, if_false, Progress.next?, Option.some.injEq] at h
        subst h
        exact ⟨rfl, own⟩
  | inPipe rule c => exact next_stepPipe_staged staged h
  | raiseFlag r =>
    cases h
    exact ⟨rfl, trivial⟩
  | _ => simp [step, Progress.next?] at h

end Message

/-- The call may have tasks for the executor, and ends with handing them over. -/
def Call.handsOver {ρ η : Type} : Call ρ η → Bool
  | .write _ _ _ | .shutDown _ | .receive _ _ | .closeComplete _ | .onClose _ _ => true
  | .submit _ _ => true
  | _ => false

/-- The stages of a call: as what a call goes on after one step. A call keeps to the side, the token
or the message it is about. -/
inductive Call.Follows {ρ η : Type} : Call ρ η → Call ρ η → Prop where
  | sleeps {source : Side} {token : Option Nat} {woken : Bool} :
      Follows (.write source token woken) (.write source token true)
  | submits {c : Call ρ η} {tasks : List (Task ρ η)} {r : Result} (can : c.handsOver = true) :
      Follows c (.submit tasks r)
  | closes {side : Side} : Follows (.close side) (.closeEndpoint side)
  | reports {side : Side} : Follows (.closeEndpoint side) (.closeReport side)
  | notifies {side : Side} : Follows (.closeReport side) (.closeNotify side)
  | completes {side : Side} : Follows (.closeNotify side) (.closeComplete side)
  | awaitsClosed {side : Side} : Follows (.awaitClosed side) (.awaitClosed side)
  | awaits {signal : Nat} : Follows (.await signal) (.await signal)
  | copies {t : Nat} : Follows (.interrupt t) (.interruptCopy t)
  | wakes {t : Nat} {places : List Side} : Follows (.interruptCopy t) (.interruptWake places)
  | wakesNext {s : Side} {places : List Side} :
      Follows (.interruptWake (s :: places)) (.interruptWake places)
  | streams {k who : Nat} {m : Message} {c c' : MessageCall}
      (h : (m.step who c).2.next? = some c') : Follows (.stream k c) (.stream k c')

/-- A call stays on the end of the message it was made on, if on any. -/
theorem Call.Follows.madeOn? {ρ η : Type} {c c' : Call ρ η} (h : c.Follows c')
    (staged : c.Staged) : c'.madeOn? = c.madeOn? ∧ c'.Staged := by
  cases h with
  | submits can => cases c <;> first | exact ⟨rfl, trivial⟩ | simp [handsOver] at can
  | @streams k who m c c' hc =>
    obtain ⟨on, stage⟩ := Message.next_step staged hc
    exact ⟨congrArg (Option.map (k, ·)) on, stage⟩
  | _ => exact ⟨rfl, trivial⟩

namespace Link

variable {ρ η : Type}

/-- The outcome of a step on a message is the outcome of the step of the message. -/
theorem step_stream (pick who k : Nat) (c : MessageCall) (l : Link ρ η) {m : Message}
    (hm : l.messages[k]? = some m) :
    (l.step pick who (.stream k c)).2 = (m.step who c).2.map (.stream k) := by
  simp only [step, hm]
  cases (m.step who c).2 <;> rfl

/-- A write sleeps only when its attempt says so. -/
theorem next_finishWrite {source : Side} {token : Option Nat} {e : Endpoint ρ Nat}
    {entry : Entry ρ} {l : Link ρ η} {c' : Call ρ η}
    (h : (l.finishWrite source token e entry).2.next? = some c') :
    (entry = .sleeps ∧ c' = .write source token true) ∨ ∃ tasks r, c' = .submit tasks r := by
  cases entry with
  | sleeps => exact .inl ⟨rfl, (Option.some.inj h).symm⟩
  | handed r => exact .inr ⟨_, _, (Option.some.inj h).symm⟩
  | _ => simp [finishWrite, Progress.next?] at h

theorem follows_step {pick who : Nat} {c c' : Call ρ η} {l : Link ρ η}
    (h : (l.step pick who c).2.next? = some c') : c.Follows c' := by
  cases c with
  | write source token woken =>
    rcases next_finishWrite h with ⟨-, rfl⟩ | ⟨tasks, r, rfl⟩
    · exact .sleeps
    · exact .submits rfl
  | stream k c =>
    cases hm : l.messages[k]? with
    | none => simp [step, hm, Progress.next?] at h
    | some m =>
      rw [step_stream pick who k c l hm, Progress.next?_map] at h
      obtain ⟨c', hc, rfl⟩ := Option.map_eq_some_iff.1 h
      exact .streams hc
  | submit tasks r =>
    rcases tasks with _ | ⟨t, _ | ⟨t', ts⟩⟩
    · simp [step, Progress.next?] at h
    · simp [step, Progress.next?] at h
    · cases h; exact .submits rfl
  | interruptWake places =>
    cases places with
    | nil => simp [step, Progress.next?] at h
    | cons p ps => cases h; exact .wakesNext
  | shutDown source =>
    simp only [step, stepShutDown] at h
    split at h
    · cases h; exact .submits rfl
    · simp [Progress.next?] at h
  | receive side r =>
    simp only [step, stepReceive] at h
    split at h
    · simp [Progress.next?] at h
    · simp [Progress.next?] at h
    · cases h; exact .submits rfl
  | close side =>
    simp only [step] at h
    split at h
    · cases h; exact .closes
    · simp [Progress.next?] at h
  | onClose side handler =>
    simp only [step] at h
    split at h
    · cases h; exact .submits rfl
    · simp [Progress.next?] at h
  | awaitClosed side =>
    simp only [step] at h
    split at h
    · simp [Progress.next?] at h
    · cases h; exact .awaitsClosed
  | await i =>
    simp only [step] at h
    split at h
    · simp [Progress.next?] at h
    · simp only at h
      split at h
      · simp [Progress.next?] at h
      · cases h; exact .awaits
  | closeEndpoint side => cases h; exact .reports
  | closeReport side => cases h; exact .notifies
  | closeNotify side => cases h; exact .completes
  | closeComplete side => cases h; exact .submits rfl
  | interrupt t => cases h; exact .copies
  | interruptCopy t => cases h; exact .wakes
  | _ => simp [step, Progress.next?] at h

end Link

/-! ## Moves -/

namespace Machine

variable {ρ η : Type}

/-- Nobody is in two calls, no end of a message is used by two calls, and every call has come to a
stage that a call can reach. -/
structure Orderly (m : Machine ρ η) : Prop where
  callers : (m.calls.map Prod.fst).Nodup
  ends : (m.calls.filterMap fun x => x.2.madeOn?).Nodup
  staged : ∀ x ∈ m.calls, x.2.Staged

/-- What a move does to the link and to the calls in progress, and its events. A step takes the call
of its caller out of the calls, in whatever order they stand, and puts back what is left of it. -/
inductive Moves (m : Machine ρ η) :
    Move ρ η → Machine ρ η → List (Event ρ η) → Prop where
  | stays (mv : Move ρ η) : Moves m mv m []
  | begins {who : Nat} {c : Call ρ η} (idle : ∀ x ∈ m.calls, x.1 ≠ who)
      (entry : c.isEntry = true)
      (free : ∀ e, c.madeOn? = some e → ∀ x ∈ m.calls, x.2.madeOn? ≠ some e) :
      Moves m (.begin who c) ⟨m.link, m.calls ++ [(who, c)]⟩ []
  | steps {who pick : Nat} {c : Call ρ η} {rest calls : List (Nat × Call ρ η)}
      (now : m.calls.Perm ((who, c) :: rest)) (awake : m.link.isAsleep who c = false)
      (next : calls.Perm ((m.link.step pick who c).2.next?.toList.map (who, ·) ++ rest)) :
      Moves m (.step who pick) ⟨(m.link.step pick who c).1, calls⟩ (m.link.events pick who c)
  | rouses {who : Nat} {c : Call ρ η} (now : (who, c) ∈ m.calls) :
      Moves m (.rouse who) ⟨m.link.rouse who c, m.calls⟩ []
  | takes {i : Nat} {t : Task ρ η} (found : m.link.tasks[i]? = some t) :
      Moves m (.takeTask i) ⟨{ m.link with tasks := m.link.tasks.eraseIdx i }, m.calls⟩
        [.started t]

variable {m m' : Machine ρ η}

/-- The call that a caller is in stands among the calls, apart from those of the others. -/
theorem calls_eq (h : m.Orderly) {who : Nat} {c : Call ρ η} (hc : m.call? who = some c) :
    ∃ front back, m.calls = front ++ (who, c) :: back ∧ ∀ x ∈ front ++ back, x.1 ≠ who :=
  eq_append_of_lookup h.callers hc

/-- The call of a caller is the one that stands among the calls. -/
theorem call?_of_mem (h : m.Orderly) {who : Nat} {c : Call ρ η} (here : (who, c) ∈ m.calls) :
    m.call? who = some c :=
  lookup_of_mem h.callers here

section CallOf

variable {who : Nat} {c : Call ρ η} {front back : List (Nat × Call ρ η)}
  (hm : m.calls = front ++ (who, c) :: back) (others : ∀ x ∈ front ++ back, x.1 ≠ who)

include hm others

theorem calls_setCall (c' : Call ρ η) :
    (m.setCall who c').calls = front ++ (who, c') :: back := by
  have keep : ∀ l : List (Nat × Call ρ η), (∀ x ∈ l, x.1 ≠ who) →
      l.map (fun x => (x.1, if x.1 == who then c' else x.2)) = l := by
    intro l hl
    refine (List.map_congr_left fun x hx => ?_).trans (List.map_id l)
    simp [beq_eq_false_iff_ne.2 (hl x hx)]
  simp only [setCall, hm, List.map_append, List.map_cons, beq_self_eq_true, if_true]
  rw [keep front fun x hx => others x (List.mem_append_left _ hx),
    keep back fun x hx => others x (List.mem_append_right _ hx)]

theorem calls_filter : m.calls.filter (·.1 != who) = front ++ back := by
  simp only [hm, List.filter_append, List.filter_cons, bne_self_eq_false, Bool.false_eq_true,
    if_false]
  rw [← List.filter_append, List.filter_eq_self]
  intro x hx
  exact bne_iff_ne.2 (others x hx)

end CallOf

/-- A caller that is awake goes on with what is left of its call, and the others are where they
were. -/
theorem step_of_awake (h : m.Orderly) {who : Nat} {c : Call ρ η} (hc : m.call? who = some c)
    (awake : m.link.isAsleep who c = false) (pick : Nat) :
    ∃ rest, m.calls.Perm ((who, c) :: rest) ∧
      (m.step who pick).1.link = (m.link.step pick who c).1 ∧
      (m.step who pick).1.calls.Perm
        ((m.link.step pick who c).2.next?.toList.map (who, ·) ++ rest) := by
  obtain ⟨front, back, hm, others⟩ := calls_eq h hc
  refine ⟨front ++ back, hm ▸ List.perm_middle, ?_⟩
  simp only [step, hc, awake, Bool.false_eq_true, if_false]
  cases (m.link.step pick who c).2 with
  | done r =>
    rw [calls_filter hm others]
    exact ⟨rfl, .refl _⟩
  | more c' | asleep c' =>
    refine ⟨rfl, ?_⟩
    rw [calls_setCall (m := ⟨(m.link.step pick who c).1, m.calls⟩) hm others]
    exact List.perm_middle

/-- Taking a step replaces or removes the call of the caller and keeps the others. -/
theorem moves_step (h : m.Orderly) (who pick : Nat) :
    Moves m (.step who pick) (m.step who pick).1 (m.events (.step who pick)) := by
  cases hc : m.call? who with
  | none =>
    simp only [step, events, hc]
    exact .stays _
  | some c =>
    cases awake : m.link.isAsleep who c with
    | true =>
      simp only [step, events, hc, awake, if_true]
      exact .stays _
    | false =>
      obtain ⟨rest, now, link, next⟩ := step_of_awake h hc awake pick
      have after : (m.step who pick).1 =
          ⟨(m.link.step pick who c).1, (m.step who pick).1.calls⟩ := by rw [← link]
      simp only [events, hc, awake, Bool.false_eq_true, if_false]
      rw [after]
      exact .steps now awake next

theorem moves_begin (who : Nat) (c : Call ρ η) :
    Moves m (.begin who c) (m.begin who c) [] := by
  unfold begin
  split
  · next can =>
    simp only [canBegin, isIdle, call?, isFree, Bool.and_eq_true, Option.isNone_iff_eq_none,
      List.lookup_eq_none_iff, bne_iff_ne] at can
    obtain ⟨⟨idle, entry⟩, free⟩ := can
    refine .begins (fun x hx hw => idle x hx hw.symm) entry ?_
    intro e he x hx
    simp only [he, List.all_eq_true, bne_iff_ne] at free
    exact free x hx
  · exact .stays _

theorem moves_rouse (h : m.Orderly) (who : Nat) : Moves m (.rouse who) (m.rouse who) [] := by
  unfold rouse
  split
  · exact .stays _
  · next c hc =>
    obtain ⟨front, back, hm, -⟩ := calls_eq h hc
    exact .rouses (by simp [hm])

theorem moves_takeTask (i : Nat) :
    Moves m (.takeTask i) (m.move (.takeTask i)) (m.events (.takeTask i)) := by
  cases found : m.link.tasks[i]? with
  | none =>
    simp only [move, takeTask?, Link.takeTask?, events, found]
    exact .stays _
  | some t =>
    simp only [move, takeTask?, Link.takeTask?, events, found]
    exact .takes found

/-- Every move of an orderly machine is one of those that `Moves` lists. -/
theorem moves (h : m.Orderly) (mv : Move ρ η) : Moves m mv (m.move mv) (m.events mv) := by
  cases mv with
  | begin who c => exact moves_begin who c
  | step who pick => exact moves_step h who pick
  | rouse who => exact moves_rouse h who
  | takeTask i => exact moves_takeTask i

/-! ## Runs -/

theorem orderly_fresh (config : Config) (first : String) (second : Option String)
    (tokens signals : Nat) :
    (fresh config first second tokens signals : Machine ρ η).Orderly :=
  ⟨List.nodup_nil, List.nodup_nil, by simp [fresh, create]⟩

/-- The calls after a step, in whatever order they stand. -/
theorem Orderly.of_perm {calls : List (Nat × Call ρ η)} (h : m.Orderly) (hp : calls.Perm m.calls)
    (l : Link ρ η) : (⟨l, calls⟩ : Machine ρ η).Orderly where
  callers := ((hp.map _).nodup_iff).2 h.callers
  ends := ((hp.filterMap _).nodup_iff).2 h.ends
  staged x hx := h.staged x (hp.mem_iff.1 hx)

/-- One caller more, who is in a call that disturbs nobody. -/
theorem Orderly.cons {l : Link ρ η} {who : Nat} {c : Call ρ η} {rest : List (Nat × Call ρ η)}
    (h : (⟨l, rest⟩ : Machine ρ η).Orderly) (idle : ∀ x ∈ rest, x.1 ≠ who)
    (free : ∀ e, c.madeOn? = some e → ∀ x ∈ rest, x.2.madeOn? ≠ some e) (staged : c.Staged) :
    (⟨l, (who, c) :: rest⟩ : Machine ρ η).Orderly where
  callers := by
    rw [List.map_cons, List.nodup_cons]
    refine ⟨?_, h.callers⟩
    intro hw
    obtain ⟨x, hx, hxw⟩ := List.mem_map.1 hw
    exact idle x hx hxw
  ends := by
    cases on : c.madeOn? with
    | none => simpa [on] using h.ends
    | some e =>
      simp only [List.filterMap_cons, on, List.nodup_cons]
      refine ⟨?_, h.ends⟩
      intro he
      obtain ⟨x, hx, hxe⟩ := List.mem_filterMap.1 he
      exact free e on x hx hxe
  staged x hx := by
    rcases List.mem_cons.1 hx with rfl | hx
    · exact staged
    · exact h.staged x hx

/-- A caller and the others, apart. -/
theorem Orderly.uncons {l : Link ρ η} {who : Nat} {c : Call ρ η} {rest : List (Nat × Call ρ η)}
    (h : (⟨l, (who, c) :: rest⟩ : Machine ρ η).Orderly) :
    (⟨l, rest⟩ : Machine ρ η).Orderly ∧ (∀ x ∈ rest, x.1 ≠ who) ∧
      (∀ e, c.madeOn? = some e → ∀ x ∈ rest, x.2.madeOn? ≠ some e) ∧ c.Staged := by
  obtain ⟨callers, ends, staged⟩ := h
  rw [List.map_cons, List.nodup_cons] at callers
  refine ⟨⟨callers.2, ?_, fun x hx => staged x (List.mem_cons_of_mem _ hx)⟩, ?_, ?_, ?_⟩
  · exact ends.sublist ((List.sublist_cons_self _ _).filterMap _)
  · intro x hx hw
    exact callers.1 (List.mem_map.2 ⟨x, hx, hw⟩)
  · intro e he x hx hxe
    simp only [List.filterMap_cons, he, List.nodup_cons] at ends
    exact ends.1 (List.mem_filterMap.2 ⟨x, hx, hxe⟩)
  · exact staged _ List.mem_cons_self

theorem Orderly.of_moves (h : m.Orderly) {mv : Move ρ η} {es : List (Event ρ η)}
    (hm : Moves m mv m' es) : m'.Orderly := by
  cases hm with
  | stays => exact h
  | rouses => exact ⟨h.callers, h.ends, h.staged⟩
  | takes => exact ⟨h.callers, h.ends, h.staged⟩
  | begins idle entry free =>
    have grown : (⟨m.link, _ :: m.calls⟩ : Machine ρ η).Orderly :=
      h.cons idle free (Call.staged_of_isEntry entry)
    exact grown.of_perm (List.perm_append_singleton _ _) _
  | @steps who pick c rest calls now awake next =>
    have before : (⟨m.link, (who, c) :: rest⟩ : Machine ρ η).Orderly := h.of_perm now.symm _
    obtain ⟨others, idle, free, staged⟩ := before.uncons
    cases hc : (m.link.step pick who c).2.next? with
    | none =>
      rw [hc] at next
      exact others.of_perm next _
    | some c' =>
      rw [hc] at next
      obtain ⟨on, stage⟩ := (Link.follows_step hc).madeOn? staged
      -- The call goes on where it was, so it disturbs the others no more than before.
      have after : (⟨m.link, (who, c') :: rest⟩ : Machine ρ η).Orderly :=
        others.cons idle (on ▸ free) stage
      exact after.of_perm next _

/-- An endpoint changes when a caller holds its lock for a step, or when a sleeper wakes there
without a notification. -/
theorem Moves.held {mv : Move ρ η} {es : List (Event ρ η)} (hm : Moves m mv m' es) (s : Side) :
    m'.link.endpoint s = m.link.endpoint s ∨
      (∃ i, m'.link.endpoint s = (m.link.endpoint s).after 0 0 (.rouse i)) ∨
      ∃ who pick c hold, mv = .step who pick ∧ (who, c) ∈ m.calls ∧
        c.hold? m.link who = some (s, hold) ∧
        m'.link.endpoint s = (m.link.endpoint s).after pick m.link.messages.size hold := by
  cases hm with
  | stays | begins | takes => exact .inl rfl
  | rouses =>
    rcases m.link.endpoint_rouse _ _ s with same | ⟨i, roused⟩
    · exact .inl same
    · exact .inr (.inl ⟨i, roused⟩)
  | @steps who pick c rest calls now =>
    have here : (who, c) ∈ m.calls := now.mem_iff.2 List.mem_cons_self
    have after := m.link.endpoint_step pick who c s
    cases held : c.hold? m.link who with
    | none =>
      rw [held] at after
      exact .inl after
    | some place =>
      obtain ⟨t, hold⟩ := place
      by_cases there : s = t
      · subst there
        simp only [held, if_true] at after
        exact .inr (.inr ⟨who, pick, c, hold, rfl, here, held, after⟩)
      · simp only [held, there, if_false] at after
        exact .inl after

/-- An endpoint changes by one hold of its lock at a time. -/
theorem Moves.endpoint {mv : Move ρ η} {es : List (Event ρ η)} (hm : Moves m mv m' es)
    (s : Side) :
    m'.link.endpoint s = m.link.endpoint s ∨
      ∃ pick n h, m'.link.endpoint s = (m.link.endpoint s).after pick n h := by
  rcases hm.held s with same | ⟨i, roused⟩ | ⟨who, pick, c, hold, -, -, -, after⟩
  · exact .inl same
  · exact .inr ⟨0, 0, .rouse i, roused⟩
  · exact .inr ⟨pick, _, hold, after⟩

/-- What holds at the start of a run and is kept by every move holds after every schedule. -/
theorem run_induction {P : List (Event ρ η) → Machine ρ η → Prop} {m : Machine ρ η}
    (orderly : m.Orderly) (start : P [] m)
    (step : ∀ {h m mv m' es}, m.Orderly → P h m → Moves m mv m' es → P (h ++ es) m')
    (schedule : List (Move ρ η)) : P (m.history schedule) (m.run schedule) := by
  -- Each move appends to the history, so the induction is over every history so far.
  have onward : ∀ (schedule : List (Move ρ η)) (h : List (Event ρ η)) (m : Machine ρ η),
      m.Orderly → P h m → P (h ++ m.history schedule) (m.run schedule) := by
    intro schedule
    induction schedule with
    | nil =>
      intro h m _ hp
      simpa [history, run] using hp
    | cons mv schedule ih =>
      intro h m orderly hp
      have one := moves orderly mv
      simpa [history, run] using ih _ _ (orderly.of_moves one) (step orderly hp one)
  simpa using onward schedule [] m orderly start

theorem orderly_run (h : m.Orderly) (schedule : List (Move ρ η)) : (m.run schedule).Orderly :=
  run_induction (P := fun _ m => m.Orderly) h h (fun orderly _ one => orderly.of_moves one) schedule

/-- Some schedule on a fresh pair leads to this machine. -/
def Reachable (m : Machine ρ η) : Prop :=
  ∃ config first second tokens signals schedule,
    (fresh config first second tokens signals).run schedule = m

/-- What holds on a fresh pair and is kept by every move holds of every reachable machine. -/
theorem Reachable.induct {P : Machine ρ η → Prop}
    (start : ∀ config first second tokens signals, P (fresh config first second tokens signals))
    (step : ∀ {m mv m' es}, m.Orderly → P m → Moves m mv m' es → P m')
    (h : m.Reachable) : P m := by
  obtain ⟨config, first, second, tokens, signals, schedule, rfl⟩ := h
  exact run_induction (P := fun _ m => P m) (orderly_fresh config first second tokens signals)
    (start ..) (fun orderly holds one => step orderly holds one) schedule

theorem endpoint_fresh (config : Config) (first : String) (second : Option String)
    (tokens signals : Nat) (s : Side) :
    (fresh config first second tokens signals : Machine ρ η).link.endpoint s =
      Endpoint.create config.queueLength := by
  cases s <;> rfl

theorem run_append (m : Machine ρ η) (front back : List (Move ρ η)) :
    m.run (front ++ back) = (m.run front).run back := List.foldl_append

theorem history_append (m : Machine ρ η) (front back : List (Move ρ η)) :
    m.history (front ++ back) = m.history front ++ (m.run front).history back := by
  induction front generalizing m with
  | nil => rfl
  | cons mv front ih =>
    rw [List.cons_append, history, ih, history, List.append_assoc]
    rfl

end Machine

end Loopback
