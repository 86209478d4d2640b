import Loopback.Proofs.Directions

/-!
# Close handlers run once

A close handler is kept until the close of its side is complete, or handed back to the caller that
adds it later. Whoever has a handler then hands it to the executor: the caller that completes the
close hands over those that were kept, and everybody else the one that was handed back.
`Machine.HandsOver` says of a side and of the journal so far how far that has got, with the journal
parted at the step that completes the close, and every move keeps it.
`Machine.close_handlers_run_once` states what follows for a whole run: no handler is handed over
before the side is closed, none twice, none is lost, and each by the right caller in the right
order.
-/

namespace Loopback

variable {ρ η : Type}

/-- The close handler of `s` that a task runs. -/
def Task.handler? (s : Side) : Task ρ η → Option η
  | .closed t h => if t = s then some h else none
  | .receive _ _ => none

namespace Call

/-- The close handler of `s` that the next step of a call adds. -/
def adds? (s : Side) : Call ρ η → Option η
  | .onClose t h => if t = s then some h else none
  | _ => none

/-- The close handlers of `s` that a call is about to hand over. -/
def handlers (s : Side) (c : Call ρ η) : List η := c.carried.filterMap (Task.handler? s)

/-- The close handler of `s` that the next step of a call hands over. -/
def handsOver? (s : Side) (c : Call ρ η) : Option η := c.handed?.bind (Task.handler? s)

/-- The close handlers of `s` that the next step of a call gives it to hand over: those that were
kept until the close is complete, or the one that it adds too late to be kept. -/
def takesOn (l : Link ρ η) (s : Side) : Call ρ η → List η
  | .closeComplete t => if t = s then (l.closing s).handlers else []
  | .onClose t h => if t = s ∧ (l.closing s).phase = .closed then [h] else []
  | _ => []

/-- Who carries no handler hands none over. -/
theorem handsOver?_eq_none {c : Call ρ η} {s : Side} (nothing : c.handlers s = []) :
    c.handsOver? s = none := by
  cases c with
  | submit tasks r =>
    cases tasks with
    | nil => rfl
    | cons t tasks =>
      rw [Call.handlers, Call.carried, List.filterMap_eq_nil_iff] at nothing
      exact nothing t List.mem_cons_self
  | _ => rfl

theorem handlers_of_isEntry {c : Call ρ η} (entry : c.isEntry = true) (s : Side) :
    c.handlers s = [] := by
  rw [handlers, carried_of_isEntry entry]
  rfl

end Call

namespace Link

variable {l : Link ρ η} {s : Side}

/-- Handlers are kept in the order in which they are added, and given away when the close is
complete. -/
theorem kept_step (pick who : Nat) (c : Call ρ η) :
    ((l.step pick who c).1.closing s).handlers =
      if c.closeStage? s = some .complete then []
      else if (l.closing s).phase = .closed then (l.closing s).handlers
      else (l.closing s).handlers ++ (c.adds? s).toList := by
  rw [closing_step]
  cases c with
  | close t =>
    by_cases here : s = t
    · subst here
      cases phase : (l.closing s).phase <;>
        simp [Call.closing?, Call.closeStage?, Call.adds?, Closing.begin, phase]
    · simp [Call.closing?, Call.closeStage?, Call.adds?, here]
  | closeComplete t =>
    by_cases here : s = t
    · subst here
      simp [Call.closing?, Call.closeStage?, Closing.complete]
    · have apart : t ≠ s := fun same => here same.symm
      simp [Call.closing?, Call.closeStage?, Call.adds?, here, apart]
  | onClose t h =>
    by_cases here : s = t
    · subst here
      cases phase : (l.closing s).phase <;>
        simp [Call.closing?, Call.closeStage?, Call.adds?, Closing.add, phase]
    · have apart : t ≠ s := fun same => here same.symm
      simp [Call.closing?, Call.closeStage?, Call.adds?, here, apart]
  | awaitClosed t =>
    by_cases here : s = t
    · subst here
      cases phase : (l.closing s).phase <;>
        simp [Call.closing?, Call.closeStage?, Call.adds?, Closing.wait, phase]
    · simp [Call.closing?, Call.closeStage?, Call.adds?, here]
  | closeEndpoint t | closeReport t | closeNotify t =>
    by_cases here : t = s <;> simp [Call.closing?, Call.closeStage?, Call.adds?, here]
  | _ => simp [Call.closing?, Call.closeStage?, Call.adds?]

theorem kept_rouse {who : Nat} (c : Call ρ η) :
    ((l.rouse who c).closing s).handlers = (l.closing s).handlers := by
  rcases l.closing_rouse who c s with same | roused
  · rw [same]
  · rw [roused]

theorem filterMap_closed (handlers : List η) (t : Side) :
    (handlers.map (Task.closed t : η → Task ρ η)).filterMap (Task.handler? s) =
      if t = s then handlers else [] := by
  rw [List.filterMap_map]
  by_cases here : t = s <;> simp [Function.comp_def, Task.handler?, here]

/-- A call about messages and receivers hands over no close handler, now or later. -/
theorem handlers_next_eq_nil {pick who : Nat} {c : Call ρ η}
    (other : c.isWrite = true ∨ (∃ side r, c = .receive side r) ∨ ∃ source, c = .shutDown source) :
    ((l.step pick who c).2.next?.map (Call.handlers s)).getD [] = [] := by
  rcases other with writes | ⟨side, r, rfl⟩ | ⟨source, rfl⟩
  · cases c with
    | write source token woken =>
      obtain ⟨l', e, entry, h, -, -⟩ := l.exists_finishWrite pick who source token woken
      rw [step, h]
      cases entry <;> rfl
    | _ => cases writes
  · simp only [step, stepReceive]
    cases ((l.endpoint side).register pick r).2 <;> rfl
  · simp only [step, stepShutDown]
    cases (l.endpoint source.other).shutDown.2 <;> rfl

/-- A call hands over what it has to, one after the other, and what it takes on comes last. -/
theorem handlers_step (pick who : Nat) (c : Call ρ η) :
    c.handlers s ++ c.takesOn l s =
      (c.handsOver? s).toList ++ ((l.step pick who c).2.next?.map (Call.handlers s)).getD [] := by
  cases busy : c.handsOver with
  | false =>
    -- A call that hands nothing over does not go on as one that does.
    obtain ⟨-, later, now, -⟩ := @handover_idle _ _ l pick who c busy s
    have nothing : c.takesOn l s = [] ∧ c.handsOver? s = none := by
      cases c with
      | closeComplete | onClose | submit => cases busy
      | _ => exact ⟨rfl, rfl⟩
    rw [Call.handlers, now, nothing.1, nothing.2]
    cases onward : (l.step pick who c).2.next? with
    | none => rfl
    | some c' =>
      rw [onward, Option.toList_some, List.flatMap_singleton] at later
      simp [Call.handlers, later]
  | true =>
    cases c with
    | submit tasks r =>
      match tasks with
      | [] => rfl
      | [t] | t :: t' :: ts =>
        cases h : t.handler? s <;>
          simp [Call.handlers, Call.carried, Call.takesOn, Call.handsOver?, Call.handed?, step,
            Progress.next?, h]
    | closeComplete t =>
      simp only [step, Progress.next?, Option.map_some, Option.getD_some, Call.handlers,
        Call.carried, filterMap_closed]
      by_cases here : t = s
      · subst here
        simp [Call.takesOn, Call.handsOver?, Call.handed?, Closing.complete]
      · simp [Call.takesOn, Call.handsOver?, Call.handed?, here]
    | onClose t h =>
      cases phase : (l.closing t).phase <;> by_cases here : t = s <;>
        simp_all [step, Closing.add, Call.handlers, Call.carried, Call.takesOn, Call.handsOver?,
          Call.handed?, Progress.next?, Task.handler?]
    | write => exact (handlers_next_eq_nil (.inl rfl)).symm
    | receive => exact (handlers_next_eq_nil (.inr (.inl ⟨_, _, rfl⟩))).symm
    | shutDown => exact (handlers_next_eq_nil (.inr (.inr ⟨_, rfl⟩))).symm
    | _ => cases busy

/-- A handler that is added is kept, or its caller takes it on; handlers that are kept no longer are
taken on by the caller that completes the close. -/
theorem kept_or_taken (pick who : Nat) (c : Call ρ η) :
    (((l.step pick who c).1.closing s).handlers ++ c.takesOn l s).Perm
      ((l.closing s).handlers ++ (c.adds? s).toList) := by
  rw [kept_step]
  cases c with
  | closeComplete t =>
    by_cases here : t = s <;>
      simp [Call.closeStage?, Call.takesOn, Call.adds?, here]
  | onClose t h =>
    by_cases here : t = s
    · subst here
      by_cases closed : (l.closing t).phase = .closed <;>
        simp [Call.closeStage?, Call.takesOn, Call.adds?, closed]
    · simp [Call.closeStage?, Call.takesOn, Call.adds?, here]
  | closeEndpoint t | closeReport t | closeNotify t =>
    by_cases here : t = s <;> simp [Call.closeStage?, Call.takesOn, Call.adds?, here]
  | _ => simp [Call.closeStage?, Call.takesOn, Call.adds?]

/-- While a side is not closed a call takes on no handler, unless it completes the close. -/
theorem takesOn_of_early {c : Call ρ η} (early : (l.closing s).phase ≠ .closed)
    (other : c.closeStage? s ≠ some .complete) : c.takesOn l s = [] := by
  cases c with
  | closeComplete t =>
    by_cases here : t = s
    · simp [Call.closeStage?, here] at other
    · simp [Call.takesOn, here]
  | onClose t h => simp [Call.takesOn, early]
  | _ => rfl

/-- On a closed side a call takes on the handler that it adds. -/
theorem takesOn_of_closed {c : Call ρ η} (closed : (l.closing s).phase = .closed)
    (other : c.closeStage? s ≠ some .complete) : c.takesOn l s = (c.adds? s).toList := by
  cases c with
  | closeComplete t =>
    by_cases here : t = s
    · simp [Call.closeStage?, here] at other
    · simp [Call.takesOn, Call.adds?, here]
  | onClose t h => by_cases here : t = s <;> simp [Call.takesOn, Call.adds?, here, closed]
  | _ => rfl

/-- No step of a caller starts a task. -/
theorem not_started_of_mem_events {pick who : Nat} {c : Call ρ η} {e : Event ρ η}
    (he : e ∈ l.events pick who c) (t : Task ρ η) : e ≠ .started t := by
  have decided {tasks : List (Task ρ η)} (he : e ∈ dispatches tasks) : e ≠ .started t := by
    obtain ⟨x, -, hx⟩ := List.mem_filterMap.1 he
    rintro rfl
    cases x <;> cases hx
  unfold events at he
  split at he
  · rw [List.mem_singleton.1 he]
    exact nofun
  · rcases List.mem_cons.1 he with rfl | he
    · exact nofun
    · exact decided he
  · rw [List.mem_singleton.1 he]
    exact nofun
  · rcases List.mem_cons.1 he with rfl | he
    · exact nofun
    · exact decided he
  · exact decided he
  · split at he
    · obtain ⟨x, -, rfl⟩ := List.mem_map.1 he
      exact nofun
    · cases he
  · cases he

end Link

/-- The close handler of `s` that is started. -/
def Event.handler? (s : Side) : Event ρ η → Option η
  | .started t => t.handler? s
  | _ => none

namespace Machine

variable {m m' : Machine ρ η} {s : Side} {j : List (Taken ρ η)}

/-! ## Reading a journal -/

/-- The close handlers of `s` that were added, in their order. -/
def added (s : Side) (j : List (Taken ρ η)) : List η := j.filterMap fun x => x.call.adds? s

/-- The close handlers of `s` that were handed to the executor, in their order. -/
def handedOver (s : Side) (j : List (Taken ρ η)) : List η :=
  j.filterMap fun x => x.call.handsOver? s

/-- The steps of one caller. -/
def stepsOf (who : Nat) (j : List (Taken ρ η)) : List (Taken ρ η) := j.filter (·.caller == who)

/-- The close handlers of `s` that a caller is about to hand over. -/
def carriedBy (s : Side) (who : Nat) (m : Machine ρ η) : List η :=
  ((m.call? who).map (Call.handlers s)).getD []

theorem added_snoc (j : List (Taken ρ η)) (x : Taken ρ η) :
    added s (j ++ [x]) = added s j ++ (x.call.adds? s).toList := filterMap_snoc _ j x

theorem handedOver_snoc (j : List (Taken ρ η)) (x : Taken ρ η) :
    handedOver s (j ++ [x]) = handedOver s j ++ (x.call.handsOver? s).toList :=
  filterMap_snoc _ j x

theorem handedOver_stepsOf_eq_nil (nothing : handedOver s j = []) (who : Nat) :
    handedOver s (stepsOf who j) = [] := by
  rw [handedOver, List.filterMap_eq_nil_iff] at nothing ⊢
  exact fun x here => nothing x (List.mem_filter.1 here).1

theorem stepsOf_snoc (who : Nat) (j : List (Taken ρ η)) (x : Taken ρ η) :
    stepsOf who (j ++ [x]) = stepsOf who j ++ if x.caller = who then [x] else [] := by
  rw [stepsOf, List.filter_append, ← stepsOf]
  by_cases mine : x.caller = who <;> simp [mine]

/-! ## Who hands over what -/

/-- How far the close handlers of `s` have got. Before the close is complete they are kept in the
order in which they were added, and nobody has any to hand over. The journal is then parted at the
step that completes the close: its caller hands over those that were added before, in their order,
and after that every caller hands over those that it adds itself. -/
inductive HandsOver (s : Side) (j : List (Taken ρ η)) (m : Machine ρ η) : Prop where
  | keeps (early : (m.link.closing s).phase ≠ .closed)
      (incomplete : ∀ x ∈ j, x.call.closeStage? s ≠ some .complete)
      (kept : (m.link.closing s).handlers = added s j) (nothing : handedOver s j = [])
      (nobody : ∀ who, m.carriedBy s who = [])
  | completed (front back : List (Taken ρ η)) (x : Taken ρ η)
      (closed : (m.link.closing s).phase = .closed) (parted : j = front ++ x :: back)
      (completes : x.call.closeStage? s = some .complete)
      (only : ∀ y ∈ front ++ back, y.call.closeStage? s ≠ some .complete)
      (none : (m.link.closing s).handlers = []) (nothing : handedOver s front = [])
      (turns : ∀ who, (if x.caller = who then added s front else []) ++
        added s (stepsOf who back) = handedOver s (stepsOf who back) ++ m.carriedBy s who)

/-- A move that takes no step leaves everything as it was. -/
theorem HandsOver.of_same (h : HandsOver s j m)
    (phase : (m'.link.closing s).phase = (m.link.closing s).phase)
    (kept : (m'.link.closing s).handlers = (m.link.closing s).handlers)
    (carried : ∀ who, m'.carriedBy s who = m.carriedBy s who) : HandsOver s j m' := by
  cases h with
  | keeps early incomplete kept' nothing nobody =>
    exact .keeps (phase ▸ early) incomplete (kept.trans kept') nothing
      fun who => (carried who).trans (nobody who)
  | completed front back x closed parted completes only none nothing turns =>
    refine .completed front back x (phase.trans closed) parted completes only (kept.trans none)
      nothing ?_
    intro who
    rw [turns who, carried who]

section Steps

variable {who pick : Nat} {c : Call ρ η}

/-- A side completes its close once. -/
theorem ClosesOnce.early_of_complete (h : ClosesOnce s j m) (here : (who, c) ∈ m.calls)
    (complete : c.closeStage? s = some .complete) : (m.link.closing s).phase ≠ .closed := by
  intro closed
  have mine : (who, CloseStage.complete) ∈ m.closersAtWork s :=
    List.mem_filterMap.2 ⟨_, here, by simp [closerAt?, complete]⟩
  rw [h.rest_of_closed closed] at mine
  cases mine

variable (call : m.call? who = some c) (link : m'.link = (m.link.step pick who c).1)
  (next : m'.call? who = (m.link.step pick who c).2.next?)
  (others : ∀ x, x ≠ who → m'.call? x = m.call? x)

include call link next others

/-- A step that is taken before the close is complete. -/
theorem HandsOver.step_early (early : (m.link.closing s).phase ≠ .closed)
    (incomplete : ∀ x ∈ j, x.call.closeStage? s ≠ some .complete)
    (kept : (m.link.closing s).handlers = added s j) (nothing : handedOver s j = [])
    (nobody : ∀ who, m.carriedBy s who = []) (outcome : Progress (Call ρ η) Result) :
    HandsOver s (j ++ [⟨who, c, outcome⟩]) m' := by
  have carried : c.handlers s = [] := by
    have mine := nobody who
    rwa [carriedBy, call] at mine
  have given := m.link.handlers_step (s := s) pick who c
  have silent := Call.handsOver?_eq_none carried
  rw [carried, List.nil_append, silent, Option.toList_none, List.nil_append, ← next] at given
  have elsewhere : ∀ x, x ≠ who → m'.carriedBy s x = [] := by
    intro x apart
    rw [carriedBy, others x apart]
    exact nobody x
  have phase : (m'.link.closing s).phase = _ := link ▸ m.link.phase_step c
  have handlers : (m'.link.closing s).handlers = _ := link ▸ Link.kept_step pick who c
  by_cases complete : c.closeStage? s = some .complete
  · -- This very step completes the close: its caller takes on what was kept.
    have all : c.takesOn m.link s = added s j := by
      cases c with
      | closeComplete t =>
        by_cases here : t = s
        · rw [Call.takesOn, if_pos here, kept]
        · simp [Call.closeStage?, here] at complete
      | closeEndpoint t | closeReport t | closeNotify t =>
        by_cases here : t = s <;> simp [Call.closeStage?, here] at complete
      | _ => cases complete
    rw [complete] at phase
    rw [if_pos complete] at handlers
    refine .completed j [] ⟨who, c, outcome⟩ phase rfl complete ?_ handlers nothing ?_
    · rwa [List.append_nil]
    · intro x
      by_cases mine : who = x
      · subst mine
        simp only [if_pos, stepsOf, List.filter_nil, added, List.filterMap_nil, handedOver,
          List.append_nil, List.nil_append]
        exact all.symm.trans given
      · simp only [if_neg mine, stepsOf, List.filter_nil, added, List.filterMap_nil, handedOver,
          List.nil_append]
        exact (elsewhere x fun same => mine same.symm).symm
  · have later : (m'.link.closing s).phase ≠ .closed := by
      rw [phase]
      split
      · next now => exact absurd now complete
      · split
        · exact fun h => Phase.noConfusion h
        · exact early
    rw [if_neg complete, if_neg early] at handlers
    refine .keeps later ?_ ?_ ?_ ?_
    · intro x hx
      rcases List.mem_append.1 hx with old | new
      · exact incomplete x old
      · rw [List.mem_singleton.1 new]
        exact complete
    · rw [handlers, kept, added_snoc]
    · rw [handedOver_snoc, nothing, silent]
      rfl
    · intro x
      by_cases mine : x = who
      · subst mine
        exact given.symm.trans (Link.takesOn_of_early early complete)
      · exact elsewhere x mine

/-- A step that is taken after the close was completed. -/
theorem HandsOver.step_closed (other : c.closeStage? s ≠ some .complete)
    {front back : List (Taken ρ η)} {x : Taken ρ η}
    (closed : (m.link.closing s).phase = .closed) (parted : j = front ++ x :: back)
    (completes : x.call.closeStage? s = some .complete)
    (only : ∀ y ∈ front ++ back, y.call.closeStage? s ≠ some .complete)
    (none : (m.link.closing s).handlers = []) (nothing : handedOver s front = [])
    (turns : ∀ who, (if x.caller = who then added s front else []) ++
      added s (stepsOf who back) = handedOver s (stepsOf who back) ++ m.carriedBy s who)
    (outcome : Progress (Call ρ η) Result) : HandsOver s (j ++ [⟨who, c, outcome⟩]) m' := by
  have phase : (m'.link.closing s).phase = _ := link ▸ m.link.phase_step c
  have handlers : (m'.link.closing s).handlers = _ := link ▸ Link.kept_step pick who c
  have given := m.link.handlers_step (s := s) pick who c
  rw [Link.takesOn_of_closed closed other, ← next] at given
  rw [if_neg other, if_pos closed, none] at handlers
  have still : (m'.link.closing s).phase = .closed := by
    rw [phase]
    split
    · rfl
    · simp [closed]
  refine .completed front (back ++ [⟨who, c, outcome⟩]) x still ?_ completes ?_ handlers nothing ?_
  · rw [parted, List.append_assoc, List.cons_append]
  · intro y hy
    rw [← List.append_assoc] at hy
    rcases List.mem_append.1 hy with old | new
    · exact only y old
    · rw [List.mem_singleton.1 new]
      exact other
  · intro y
    rw [stepsOf_snoc]
    by_cases mine : who = y
    · subst mine
      have before : m.carriedBy s who = c.handlers s := by rw [carriedBy, call]; rfl
      have after : m'.carriedBy s who = ((m'.call? who).map (Call.handlers s)).getD [] := rfl
      rw [if_pos rfl, added_snoc, handedOver_snoc, ← List.append_assoc, turns who, before, after,
        List.append_assoc, List.append_assoc, given]
    · have same : m'.carriedBy s y = m.carriedBy s y := by
        rw [carriedBy, others y fun same => mine same.symm, carriedBy]
      rw [if_neg mine, List.append_nil, same]
      exact turns y

theorem HandsOver.step (h : HandsOver s j m) (once : ClosesOnce s j m)
    (here : (who, c) ∈ m.calls) (outcome : Progress (Call ρ η) Result) :
    HandsOver s (j ++ [⟨who, c, outcome⟩]) m' := by
  cases h with
  | keeps early incomplete kept nothing nobody =>
    exact HandsOver.step_early call link next others early incomplete kept nothing nobody outcome
  | completed front back x closed parted completes only none nothing turns =>
    have other : c.closeStage? s ≠ some .complete := fun complete =>
      once.early_of_complete here complete closed
    exact HandsOver.step_closed call link next others other closed parted completes only none
      nothing turns outcome

end Steps

/-- A call that begins carries nothing. -/
theorem carriedBy_begin (who x : Nat) (c : Call ρ η) :
    (m.begin who c).carriedBy s x = m.carriedBy s x := by
  unfold begin
  split
  · next can =>
    simp only [canBegin, isIdle, Bool.and_eq_true, Option.isNone_iff_eq_none] at can
    obtain ⟨⟨idle, entry⟩, -⟩ := can
    have call : (⟨m.link, m.calls ++ [(who, c)]⟩ : Machine ρ η).call? x =
        (m.call? x).or (List.lookup x [(who, c)]) := List.lookup_append
    rw [carriedBy, call]
    by_cases mine : x = who
    · subst mine
      simp [carriedBy, idle, Call.handlers_of_isEntry entry]
    · have apart : (x == who) = false := beq_false_of_ne mine
      simp [carriedBy, List.lookup_cons, apart]
  · rfl

/-- Every move keeps to who hands over what. -/
theorem HandsOver.move (h : HandsOver s j m) (orderly : m.Orderly) (once : ClosesOnce s j m)
    (mv : Move ρ η) : HandsOver s (j ++ (m.taken? mv).toList) (m.move mv) := by
  have quietly (none : m.taken? mv = none)
      (phase : ((m.move mv).link.closing s).phase = (m.link.closing s).phase)
      (kept : ((m.move mv).link.closing s).handlers = (m.link.closing s).handlers)
      (carried : ∀ who, (m.move mv).carriedBy s who = m.carriedBy s who) :
      HandsOver s (j ++ (m.taken? mv).toList) (m.move mv) := by
    rw [none, Option.toList_none, List.append_nil]
    exact h.of_same phase kept carried
  cases mv with
  | begin who c =>
    exact quietly rfl (by rw [Machine.move, link_begin]) (by rw [Machine.move, link_begin])
      fun x => carriedBy_begin who x c
  | step who pick =>
    rcases step_cases orderly who pick with ⟨same, none, -⟩ | ⟨c, call, -, taken, -, link, next⟩
    · exact quietly none (by rw [Machine.move, same]) (by rw [Machine.move, same])
        fun x => by rw [Machine.move, same]
    · rw [taken, Option.toList_some]
      have here := (call?_eq_some_iff orderly).1 call
      exact h.step call link next (fun x apart => call?_step_other orderly apart pick) once here _
  | rouse who =>
    rcases m.rouse_cases who with same | ⟨c, -, after⟩
    · exact quietly rfl (by rw [Machine.move, same]) (by rw [Machine.move, same])
        fun x => by rw [Machine.move, same]
    · rw [Machine.move, after] at quietly ⊢
      exact quietly rfl (Link.phase_rouse c) (Link.kept_rouse c) fun x => rfl
  | takeTask i =>
    cases found : m.link.tasks[i]? <;>
      exact quietly rfl (by simp [Machine.move, takeTask?, Link.takeTask?, found, Link.closing])
        (by simp [Machine.move, takeTask?, Link.takeTask?, found, Link.closing])
        fun x => by simp [Machine.move, takeTask?, Link.takeTask?, found, carriedBy, call?]

/-! ## No handler is lost -/

/-- The close handlers of `s` that are with a caller that is about to hand them over. -/
def carried (s : Side) (m : Machine ρ η) : List η := m.calls.flatMap fun x => x.2.handlers s

/-- Every handler that was added is in one place: kept, with a caller, or handed over. -/
def EachHeld (s : Side) (j : List (Taken ρ η)) (m : Machine ρ η) : Prop :=
  (added s j).Perm ((m.link.closing s).handlers ++ m.carried s ++ handedOver s j)

/-- What is kept, with the callers and handed over in total, after a step that moves handlers from
one place to another. -/
theorem exchanged {kept kept' mine later taken new out : Multiset η} (rest handed : Multiset η)
    (held : kept' + taken = kept + new) (given : mine + taken = out + later) :
    kept + (mine + rest) + handed + new = kept' + (later + rest) + (handed + out) := by
  refine add_right_cancel (b := taken) ?_
  calc
    kept + (mine + rest) + handed + new + taken =
        (kept + new) + (mine + taken) + rest + handed := by ac_rfl
    _ = (kept' + taken) + (out + later) + rest + handed := by rw [held, given]
    _ = kept' + (later + rest) + (handed + out) + taken := by ac_rfl

theorem EachHeld.of_advances {t? : Option (Taken ρ η)} (h : EachHeld s j m)
    (one : Advances m m' t?) : EachHeld s (j ++ t?.toList) m' := by
  cases one with
  | stays | takes =>
    rw [Option.toList_none, List.append_nil]
    exact h
  | begins idle entry =>
    rw [Option.toList_none, List.append_nil]
    simpa [EachHeld, carried, Call.handlers_of_isEntry entry] using h
  | @rouses who c now =>
    rw [Option.toList_none, List.append_nil]
    unfold EachHeld
    rw [Link.kept_rouse]
    exact h
  | @steps who pick c rest calls now awake next =>
    have held := m.link.kept_or_taken (s := s) pick who c
    have given := m.link.handlers_step (s := s) pick who c
    have before := now.flatMap_right fun x => x.2.handlers s
    have after := next.flatMap_right fun x => x.2.handlers s
    have onward : ((m.link.step pick who c).2.next?.toList.map (who, ·)).flatMap
        (fun x => x.2.handlers s) =
          ((m.link.step pick who c).2.next?.map (Call.handlers s)).getD [] := by
      cases (m.link.step pick who c).2.next? <;> simp
    rw [List.flatMap_append, onward] at after
    rw [List.flatMap_cons] at before
    unfold EachHeld carried at h ⊢
    rw [Option.toList_some, added_snoc, handedOver_snoc]
    -- Up to order both sides are sums of the same lists.
    rw [← Multiset.coe_eq_coe] at h held before after ⊢
    have given := congrArg (fun l : List η => (l : Multiset η)) given
    simp only [← Multiset.coe_add] at h held given before after ⊢
    rw [h, before, after]
    exact exchanged _ _ held given

/-! ## What the executor does with them -/

/-- The close handlers of `s` that are with the executor. -/
def waitingToStart (s : Side) (m : Machine ρ η) : List η :=
  m.link.tasks.filterMap (Task.handler? s)

/-- What a move starts was with the executor, and what it hands over is with it afterwards. -/
theorem waitingToStart_move (orderly : m.Orderly) (mv : Move ρ η) :
    ((m.events mv).filterMap (Event.handler? s) ++ (m.move mv).waitingToStart s).Perm
      (m.waitingToStart s ++ handedOver s (m.taken? mv).toList) := by
  cases mv with
  | begin who c =>
    simp [Machine.move, events, taken?, waitingToStart, link_begin, handedOver]
  | step who pick =>
    rcases step_cases orderly who pick with ⟨same, none, nothing⟩ | ⟨c, -, -, taken, es, link, -⟩
    · simp [Machine.move, same, none, nothing, handedOver]
    · have silent : (m.link.events pick who c).filterMap (Event.handler? s) = [] := by
        rw [List.filterMap_eq_nil_iff]
        intro e he
        cases e with
        | started t => exact absurd rfl (Link.not_started_of_mem_events he t)
        | _ => rfl
      rw [es, silent, taken, waitingToStart, Machine.move, link, Link.tasks_step,
        List.filterMap_append]
      cases handed : c.handed? with
      | none => simp [waitingToStart, handedOver, Call.handsOver?, handed]
      | some t =>
        cases h : t.handler? s <;>
          simp [waitingToStart, handedOver, Call.handsOver?, handed, h]
  | rouse who =>
    rcases m.rouse_cases who with same | ⟨c, -, after⟩
    · simp [Machine.move, same, events, taken?, handedOver]
    · simp [Machine.move, after, events, taken?, handedOver, waitingToStart, Link.tasks_rouse]
  | takeTask i =>
    cases found : m.link.tasks[i]? with
    | none => simp [Machine.move, takeTask?, Link.takeTask?, events, found, taken?, handedOver]
    | some t =>
      obtain ⟨hi, rfl⟩ := List.getElem?_eq_some_iff.1 found
      have gone := (List.getElem_cons_eraseIdx_perm hi).filterMap (Task.handler? s)
      simp only [Machine.move, takeTask?, Link.takeTask?, events, found, taken?, handedOver,
        waitingToStart, Option.map_some, Option.getD_some, Option.toList_some, Option.toList_none,
        List.filterMap_nil, List.append_nil]
      refine List.Perm.trans ?_ gone
      cases h : m.link.tasks[i].handler? s <;> simp [Event.handler?, h]

/-! ## Every run -/

section Run

variable (config : Config) (first : String) (second : Option String) (tokens signals : Nat)
  (schedule : List (Move ρ η)) (s : Side)

theorem handsOver_run :
    HandsOver s ((fresh config first second tokens signals).journal schedule)
      ((fresh config first second tokens signals).run schedule) := by
  have orderly : (fresh (ρ := ρ) (η := η) config first second tokens signals).Orderly :=
    orderly_fresh config first second tokens signals
  have untouched : (fresh (ρ := ρ) (η := η) config first second tokens signals).link.closing s =
      Closing.create := by cases s <;> rfl
  induction schedule using List.reverseRecOn with
  | nil =>
    have nobody : ∀ who, (fresh (ρ := ρ) (η := η) config first second tokens signals).carriedBy s
        who = [] := fun who => rfl
    refine .keeps ?_ (fun x here => absurd here List.not_mem_nil) ?_ rfl nobody
    · show ((fresh config first second tokens signals).link.closing s).phase ≠ .closed
      rw [untouched]
      exact fun closed => Phase.noConfusion closed
    · show ((fresh config first second tokens signals).link.closing s).handlers = []
      rw [untouched]
      rfl
  | append_singleton front mv ih =>
    have once := closesOnce_run (ρ := ρ) (η := η) config first second tokens signals front s
    have one := ih.move (orderly_run orderly front) once mv
    rw [journal_append, run_append]
    generalize (fresh config first second tokens signals).journal front = j,
      (fresh config first second tokens signals).run front = m at one
    simpa [journal, run] using one

theorem eachHeld_run :
    EachHeld s ((fresh config first second tokens signals).journal schedule)
      ((fresh config first second tokens signals).run schedule) := by
  refine journal_induction (P := EachHeld s) (orderly_fresh config first second tokens signals) ?_
    (fun _ held one => held.of_advances one) schedule
  cases s <;> exact .refl _

theorem started_or_waiting_run :
    (handedOver s ((fresh config first second tokens signals).journal schedule)).Perm
      (((fresh config first second tokens signals).history schedule).filterMap
          (Event.handler? s) ++
        ((fresh config first second tokens signals).run schedule).waitingToStart s) := by
  induction schedule using List.reverseRecOn with
  | nil => exact .refl _
  | append_singleton front mv ih =>
    have orderly := orderly_run (orderly_fresh (ρ := ρ) (η := η) config first second tokens signals)
      front
    have one := waitingToStart_move (s := s) orderly mv
    rw [journal_append, run_append, history_append, handedOver, List.filterMap_append,
      List.filterMap_append, ← handedOver]
    simp only [journal, history, run, List.foldl_cons, List.foldl_nil, List.append_nil] at one ⊢
    refine (ih.append_right _).trans ?_
    rw [List.append_assoc, List.append_assoc]
    exact (one.symm.append_left _)

end Run

/-- A journal is parted in one way at the step that completes the close. -/
theorem parted_unique {front front' back back' : List (Taken ρ η)} {x x' : Taken ρ η}
    (same : front ++ x :: back = front' ++ x' :: back')
    (completes : x.call.closeStage? s = some .complete)
    (only : ∀ y ∈ front' ++ back', y.call.closeStage? s ≠ some .complete) :
    front = front' ∧ x = x' ∧ back = back' := by
  rcases List.append_eq_append_iff.1 same with ⟨between, rest, tail⟩ | ⟨between, rest, tail⟩ <;>
    cases between with
    | nil => simp_all
    | cons y between =>
      injection tail with head tail
      have there : x ∈ front' ++ back' := by simp_all
      exact absurd completes (only x there)

/-- Once the close of a side is complete, each caller has handed over those handlers that it took
on, or still carries them. -/
theorem HandsOver.turn (h : HandsOver s j m) {front back : List (Taken ρ η)} {x : Taken ρ η}
    (parted : j = front ++ x :: back) (completes : x.call.closeStage? s = some .complete)
    (who : Nat) :
    (if x.caller = who then added s front else []) ++ added s (stepsOf who back) =
      handedOver s (stepsOf who j) ++ m.carriedBy s who := by
  cases h with
  | keeps early incomplete =>
    exact absurd completes (incomplete x (parted ▸ List.mem_append_right _ List.mem_cons_self))
  | completed front' back' x' closed parted' completes' only none nothing turns =>
    obtain ⟨rfl, rfl, rfl⟩ := parted_unique (parted.symm.trans parted') completes only
    have silent : x.call.handsOver? s = Option.none := by
      generalize x.call = c at completes
      cases c with
      | submit => cases completes
      | _ => rfl
    have steps : handedOver s (stepsOf who (front ++ x :: back)) =
        handedOver s (stepsOf who back) := by
      rw [stepsOf, List.filter_append, handedOver, List.filterMap_append, ← stepsOf, ← handedOver,
        handedOver_stepsOf_eq_nil nothing, List.nil_append, List.filter_cons]
      split
      · rw [List.filterMap_cons, silent]
        rfl
      · rfl
    rw [turns who, parted, steps]

/-- A caller that neither completes the close of `s` nor adds a handler there hands none of the
handlers of `s` over, whatever it does to the other side. -/
theorem HandsOver.eq_nil_of_apart (h : HandsOver s j m) {who : Nat}
    (apart : ∀ x ∈ j, x.caller = who →
      x.call.closeStage? s ≠ some .complete ∧ x.call.adds? s = none) :
    handedOver s (stepsOf who j) = [] := by
  have turn := @h.turn
  cases h with
  | keeps _ _ _ nothing => exact handedOver_stepsOf_eq_nil nothing who
  | completed front back x closed parted completes only none nothing turns =>
    have here : x ∈ j := parted ▸ List.mem_append_right _ List.mem_cons_self
    have other : x.caller ≠ who := fun mine => (apart x here mine).1 completes
    have nothingAdded : added s (stepsOf who back) = [] := by
      rw [added, List.filterMap_eq_nil_iff]
      intro y hy
      obtain ⟨there, mine⟩ := List.mem_filter.1 hy
      have later : y ∈ j := parted ▸ List.mem_append_right _ (List.mem_cons_of_mem _ there)
      exact (apart y later (eq_of_beq mine)).2
    have turn := turn parted completes who
    rw [if_neg other, nothingAdded, List.append_nil, eq_comm, List.append_eq_nil_iff] at turn
    exact turn.1

/-- On a closed side no handler is kept. -/
theorem HandsOver.kept_eq_nil (h : HandsOver s j m) (closed : (m.link.closing s).phase = .closed) :
    (m.link.closing s).handlers = [] := by
  cases h with
  | keeps early => exact absurd closed early
  | completed _ _ _ _ _ _ _ none => exact none

/-- So what is not handed over on a closed side is with a caller that is about to do it. -/
theorem EachHeld.of_closed (held : EachHeld s j m) (turns : HandsOver s j m)
    (closed : (m.link.closing s).phase = .closed) :
    (added s j).Perm (m.carried s ++ handedOver s j) := by
  rwa [EachHeld, turns.kept_eq_nil closed] at held

/-- The first caller that asked for the close, once it has returned, took the step that completes
the close. -/
theorem ClosesOnce.completed_of_idle (once : ClosesOnce s j m) {who : Nat} {others : List Nat}
    (first : closers s j = who :: others) (idle : m.isIdle who = true) :
    (m.link.closing s).phase = .closed ∧ ∃ front x back, j = front ++ x :: back ∧
      x.call.closeStage? s = some .complete ∧ x.caller = who := by
  cases once with
  | untouched phase asked =>
    rw [asked] at first
    cases first
  | @underway closer stage _ phase asked acted alone =>
    -- The closer would be in the middle of its call.
    cases asked.symm.trans first
    have atWork : (who, stage) ∈ m.closersAtWork s := alone ▸ List.mem_singleton_self _
    obtain ⟨⟨x, c⟩, here, stands⟩ := List.mem_filterMap.1 atWork
    obtain ⟨_, -, same⟩ := Option.map_eq_some_iff.1 stands
    obtain ⟨rfl, -⟩ := Prod.mk.inj same
    rw [isIdle, Option.isNone_iff_eq_none, call?, List.lookup_eq_none_iff] at idle
    exact absurd rfl (bne_iff_ne.1 (idle _ here))
  | @completed closer _ phase asked acted nobody =>
    cases asked.symm.trans first
    have all : (who, CloseStage.complete) ∈ closeActions s j := by
      rw [acted]
      exact List.mem_map_of_mem (by decide)
    obtain ⟨x, here, stood⟩ := List.mem_filterMap.1 all
    obtain ⟨stage, completes, same⟩ := Option.map_eq_some_iff.1 stood
    obtain ⟨mine, rfl⟩ := Prod.mk.inj same
    obtain ⟨front, back, parted⟩ := List.append_of_mem here
    exact ⟨phase, front, x, back, parted, completes, mine⟩

/-- The close handlers of a side run once. -/
structure HandlersRunOnce (s : Side) (j : List (Taken ρ η)) (h : List (Event ρ η))
    (m : Machine ρ η) : Prop where
  /-- None is handed to the executor before the side is closed, and then each in its turn. -/
  turns : HandsOver s j m
  /-- None is handed over twice, and none is lost. -/
  held : EachHeld s j m
  /-- Once the close is complete, a caller whose call has returned handed over what it had to: those
  added before the completion if it was the one to complete the close, and those that it added
  afterwards. -/
  finished : ∀ front x back, j = front ++ x :: back → x.call.closeStage? s = some .complete →
    ∀ who, m.isIdle who = true → handedOver s (stepsOf who j) =
      (if x.caller = who then added s front else []) ++ added s (stepsOf who back)
  /-- Once the first caller that asked for the close has returned, the side is closed. That caller
  took the completing step, and handed over every handler that was added before it. What was added
  since is handed over, or with a caller that is about to do so before it returns itself. -/
  returned : ∀ who others, closers s j = who :: others → m.isIdle who = true →
    (m.link.closing s).phase = .closed ∧ (added s j).Perm (m.carried s ++ handedOver s j) ∧
      ∃ front x back, j = front ++ x :: back ∧ x.call.closeStage? s = some .complete ∧
        x.caller = who ∧ handedOver s (stepsOf who j) = added s front ++ added s (stepsOf who back)
  /-- When nobody is about to hand one over on a closed side, all were. -/
  complete : (m.link.closing s).phase = .closed → m.carried s = [] →
    (handedOver s j).Perm (added s j)
  /-- The executor starts what was handed over, each once, or has not started it yet. -/
  executor : (handedOver s j).Perm (h.filterMap (Event.handler? s) ++ m.waitingToStart s)
  /-- A caller that adds a handler leaves it to be handed over later, and on a closed side goes on
  to hand it over itself before it answers. -/
  adds : ∀ who f pick, m.call? who = some (.onClose s f) →
    m.taken? (.step who pick) = some ⟨who, .onClose s f,
      if (m.link.closing s).phase = .closed then .more (.submit [.closed s f] (.ok .unit))
      else .done (.ok .unit)⟩
  /-- Whoever did not complete the close of this side, and added no handler to it, handed none of
  its handlers over. -/
  apart : ∀ who, (∀ x ∈ j, x.caller = who →
      x.call.closeStage? s ≠ some .complete ∧ x.call.adds? s = none) →
    handedOver s (stepsOf who j) = []

theorem taken?_onClose {who : Nat} {f : η} (call : m.call? who = some (.onClose s f))
    (pick : Nat) :
    m.taken? (.step who pick) = some ⟨who, .onClose s f,
      if (m.link.closing s).phase = .closed then .more (.submit [.closed s f] (.ok .unit))
      else .done (.ok .unit)⟩ := by
  rw [taken?_of_awake call rfl]
  cases phase : (m.link.closing s).phase <;> simp [Link.step, Closing.add, phase]

/-- After every interleaving of calls that add handlers to the sides, close them and wait for that,
every close handler has run once or is on its way to. -/
theorem close_handlers_run_once (config : Config) (first : String) (second : Option String)
    (tokens signals : Nat) (schedule : List (Move ρ η)) (s : Side) :
    HandlersRunOnce s ((fresh config first second tokens signals).journal schedule)
      ((fresh config first second tokens signals).history schedule)
      ((fresh config first second tokens signals).run schedule) := by
  have turns := handsOver_run (ρ := ρ) (η := η) config first second tokens signals schedule s
  have held := eachHeld_run (ρ := ρ) (η := η) config first second tokens signals schedule s
  have executor := started_or_waiting_run (ρ := ρ) (η := η) config first second tokens signals
    schedule s
  have once := closesOnce_run (ρ := ρ) (η := η) config first second tokens signals schedule s
  generalize (fresh config first second tokens signals).journal schedule = j,
    (fresh config first second tokens signals).history schedule = h,
    (fresh config first second tokens signals).run schedule = m at turns held executor once
  have finished : ∀ front x back, j = front ++ x :: back →
      x.call.closeStage? s = some .complete → ∀ who, m.isIdle who = true →
        handedOver s (stepsOf who j) =
          (if x.caller = who then added s front else []) ++ added s (stepsOf who back) := by
    intro front x back parted completes who idle
    have none : m.carriedBy s who = [] := by
      rw [isIdle, Option.isNone_iff_eq_none] at idle
      rw [carriedBy, idle]
      rfl
    rw [turns.turn parted completes who, none, List.append_nil]
  refine ⟨turns, held, finished, ?_, ?_, executor, ?_, ?_⟩
  · intro who others asked idle
    obtain ⟨closed, front, x, back, parted, completes, mine⟩ := once.completed_of_idle asked idle
    have own := finished front x back parted completes who idle
    rw [if_pos mine] at own
    exact ⟨closed, held.of_closed turns closed, front, x, back, parted, completes, mine, own⟩
  · intro closed nobody
    have all := held.of_closed turns closed
    rw [nobody] at all
    exact all.symm
  · exact fun who f pick call => taken?_onClose call pick
  · exact fun who others => turns.eq_nil_of_apart others

/-- Caller 2 closes side `a`. Handler 7 was added before, and 8 is added on the way. Caller 0 adds 9
when the close is complete and hands it over itself, before caller 2 gets to the others. -/
example :
    let added : List (Move Nat Nat) := [.begin 0 (.onClose .a 7), .step 0 0, .begin 2 (.close .a),
      .step 2 0, .step 2 0, .begin 1 (.onClose .a 8), .step 1 0, .step 2 0, .step 2 0, .step 2 0,
      .begin 0 (.onClose .a 9), .step 0 0, .step 0 0, .step 2 0, .step 2 0]
    let j := (fresh ⟨1, 1⟩ "pair" none 0 0).journal added
    handedOver .a j = [9, 7, 8] ∧ handedOver .a (stepsOf 2 j) = [7, 8] ∧ handedOver .b j = [] := by
  decide

end Machine

end Loopback
