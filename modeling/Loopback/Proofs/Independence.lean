import Loopback.Proofs.Directions

/-!
# Each direction runs as if it were alone

Take a schedule in which every caller goes in one direction and no token is shared, and leave out
the callers of one direction. Those that are left take the same steps with the same outcomes, and
the endpoint they meet at goes through the same states; only the numbers of the messages differ,
since they count both directions. `Machine.Beside` relates the two machines, and
`Machine.directions_independent` states what follows. The contexts are all that the directions have
in common: their counts add up.
-/

namespace Loopback

/-- Renames the messages in a step that was taken. -/
def Taken.rename {ρ η : Type} (f : Nat → Nat) (x : Taken ρ η) : Taken ρ η :=
  ⟨x.caller, x.call.rename f, x.outcome.rename f⟩

namespace Machine

variable {ρ η : Type} {f : Nat → Nat} {home realm : Nat → Side} {s : Side}
  {m m' n : Machine ρ η} {mv : Move ρ η}

/-! ## Callers keep to their directions -/

/-- Every call in progress is in the direction of its caller. -/
def Sorted (home realm : Nat → Side) (m : Machine ρ η) : Prop :=
  ∀ x ∈ m.calls, x.2.inbound realm (home x.1) = true

/-- The registry of a token names no place but the one that the token belongs to. -/
theorem Sorted.listed (sorted : m.Sorted home realm) (booked : m.Booked) (t : Nat)
    (tok : Token Side) (found : m.link.tokens[t]? = some tok) : ∀ p ∈ tok.parked, p = realm t := by
  intro p here
  obtain ⟨⟨who, c⟩, there, place⟩ :=
    List.mem_filterMap.1 ((booked.registry t tok found).mem_iff.1 here)
  have inbound := sorted _ there
  cases c with
  | write source token woken =>
    cases woken with
    | false => cases token <;> cases place
    | true =>
      cases token with
      | none => cases place
      | some u =>
        simp only [Call.place?, Option.ite_none_right_eq_some, Option.some.injEq] at place
        simp only [Call.inbound, Option.all_some, Bool.and_eq_true, decide_eq_true_eq] at inbound
        obtain ⟨rfl, rfl⟩ := place
        exact inbound.1.trans inbound.2.symm
  | _ => cases place

theorem Sorted.of_moves {es : List (Event ρ η)} (orderly : m.Orderly) (booked : m.Booked)
    (sorted : m.Sorted home realm) (keeps : mv.keepsTo home realm = true)
    (one : Moves m mv m' es) : m'.Sorted home realm := by
  cases one with
  | stays | rouses => exact sorted
  | takes => cases keeps
  | begins =>
    intro x here
    rcases List.mem_append.1 here with old | new
    · exact sorted x old
    · exact List.mem_singleton.1 new ▸ keeps
  | @steps who pick c rest calls now awake next =>
    rintro ⟨x, c'⟩ here
    rcases (mem_calls_step orderly now next).1 here with ⟨rfl, onward⟩ | ⟨-, old⟩
    · exact Link.inbound_step (sorted _ (now.mem_iff.2 List.mem_cons_self))
        (sorted.listed booked) onward
    · exact sorted _ old

theorem sorted_run (config : Config) (first : String) (second : Option String)
    (tokens signals : Nat) {schedule : List (Move ρ η)}
    (keeps : ∀ mv ∈ schedule, mv.keepsTo home realm = true) :
    ((fresh config first second tokens signals).run schedule).Sorted home realm := by
  induction schedule using List.reverseRecOn with
  | nil => exact fun _ here => absurd here List.not_mem_nil
  | append_singleton front mv ih =>
    have orderly := orderly_run (orderly_fresh (ρ := ρ) (η := η) config first second tokens signals)
      front
    have reached : ((fresh config first second tokens signals : Machine ρ η).run front).Reachable :=
      ⟨_, _, _, _, _, front, rfl⟩
    have sorted := ih fun mv' earlier => keeps mv' (List.mem_append_left _ earlier)
    rw [run_append]
    exact sorted.of_moves orderly reached.booked
      (keeps mv (List.mem_append_right _ List.mem_cons_self)) (moves orderly mv)

/-! ## Two machines side by side -/

/-- The machine `m` does for the callers of the direction towards `s` what `n` does, with the
numbers `f` for the messages. -/
structure Beside (f : Nat → Nat) (home realm : Nat → Side) (s : Side) (n m : Machine ρ η) :
    Prop where
  link : Link.Beside f realm s n.link m.link
  calls : ∀ who, home who = s → m.call? who = (n.call? who).map (Call.rename f)

/-- The same callers can go on. -/
theorem Beside.canStep_eq (beside : Beside f home realm s n m) (orderly : n.Orderly)
    (sorted : n.Sorted home realm) {who : Nat} (here : home who = s) :
    m.canStep who = n.canStep who := by
  have call := beside.calls who here
  cases now : n.call? who with
  | none =>
    rw [now] at call
    simp only [canStep, call, now, Option.map_none]
  | some c =>
    rw [now] at call
    have inbound := sorted _ ((call?_eq_some_iff orderly).1 now)
    rw [here] at inbound
    have asleep : m.link.isAsleep who (c.rename f) = n.link.isAsleep who c :=
      beside.link.isAsleep_eq inbound
    simp only [canStep, call, now, Option.map_some, asleep]

/-- A message that a move delivers bears the number of the messages before it. -/
theorem delivered_move (s : Side) (mv : Move ρ η)
    (some : (Ledger.ofHistory s (m.events mv)).delivered ≠ []) :
    (Ledger.ofHistory s (m.events mv)).delivered = [m.link.messages.size] := by
  cases mv with
  | step who pick =>
    simp only [events] at some ⊢
    split at some
    · next c call =>
      split at some
      · exact absurd rfl some
      · next awake =>
        simp only [awake]
        rcases m.link.delivered_step pick who c s with ⟨none, -⟩ | ⟨one, -⟩
        · exact absurd none some
        · exact one
    · exact absurd rfl some
  | takeTask i =>
    simp only [events] at some
    cases found : m.link.tasks[i]? <;> rw [found] at some <;> exact absurd rfl some
  | _ => exact absurd rfl some

/-- A move of the direction towards `s` comes to the same on both machines. -/
structure SameMove (f : Nat → Nat) (home realm : Nat → Side) (s : Side) (n m : Machine ρ η)
    (mv : Move ρ η) : Prop where
  taken : m.taken? mv = (n.taken? mv).map (Taken.rename f)
  beside : Beside f home realm s (n.move mv) (m.move mv)
  ledger : Ledger.ofHistory s (m.events mv) = (Ledger.ofHistory s (n.events mv)).rename f
  size : (n.move mv).link.messages.size =
    n.link.messages.size + (Ledger.ofHistory s (n.events mv)).delivered.length

section Moves

variable (orderly : m.Orderly) (beside : Beside f home realm s n m)

include orderly beside

/-- Only the caller that makes a move goes on with its call. -/
theorem Beside.calls_move (orderly' : n.Orderly) {who : Nat} (mover : mv.who? = some who)
    (own : (m.move mv).call? who = ((n.move mv).call? who).map (Call.rename f)) (x : Nat)
    (here : home x = s) :
    (m.move mv).call? x = ((n.move mv).call? x).map (Call.rename f) := by
  by_cases same : x = who
  · exact same ▸ own
  · have other : mv.who? ≠ some x := fun h => same (Option.some.inj (h.symm.trans mover))
    rw [(moves orderly mv).call?_other orderly other,
      (moves orderly' mv).call?_other orderly' other]
    exact beside.calls x here

theorem Beside.begins (orderly' : n.Orderly) {who : Nat} {c : Call ρ η} (here : home who = s)
    (inbound : c.inbound realm s = true) : SameMove f home realm s n m (.begin who c) := by
  have can : m.canBegin who c = n.canBegin who c := by
    simp [canBegin, isIdle, isFree, beside.calls who here, Call.madeOn?_of_inbound inbound]
  refine ⟨rfl, ⟨?_, beside.calls_move orderly orderly' rfl ?_⟩, rfl, ?_⟩
  · simp only [Machine.move, begin, can]
    split <;> exact beside.link
  · cases allowed : n.canBegin who c with
    | true =>
      have entry : c.isEntry = true := by
        simp only [canBegin, Bool.and_eq_true] at allowed
        exact allowed.1.2
      have now := call?_begin orderly (can.trans allowed)
      have now' := call?_begin orderly' allowed
      simp only [Machine.move, now, now', Option.map_some, Call.rename_of_isEntry f entry]
    | false =>
      simp only [Machine.move, begin, can, allowed, Bool.false_eq_true, if_false]
      exact beside.calls who here
  · simp only [Machine.move, begin]
    split <;> rfl

/-- A caller that is not asleep takes the same step on both machines. -/
theorem Beside.steps (orderly' : n.Orderly) {who : Nat} (pick : Nat) {c : Call ρ η}
    (here : home who = s) (inbound : c.inbound realm s = true) (now : n.call? who = some c)
    (awake : n.link.isAsleep who c = false)
    (named : (Ledger.ofHistory s (m.events (.step who pick))).delivered ≠ [] →
      f n.link.messages.size = m.link.messages.size) :
    SameMove f home realm s n m (.step who pick) := by
  have call := beside.calls who here
  rw [now] at call
  have asleep : m.link.isAsleep who (c.rename f) = false :=
    (beside.link.isAsleep_eq inbound).trans awake
  have decided : m.events (.step who pick) = m.link.events pick who (c.rename f) := by
    simp [events, call, asleep]
  have decided' : n.events (.step who pick) = n.link.events pick who c := by
    simp [events, now, awake]
  rw [decided] at named
  obtain ⟨outcome, link, ledger⟩ := beside.link.step inbound named
  obtain ⟨-, -, after, -⟩ := step_of_awake orderly call asleep pick
  obtain ⟨-, -, after', -⟩ := step_of_awake orderly' now awake pick
  refine ⟨?_, ⟨?_, beside.calls_move orderly orderly' rfl ?_⟩, ?_, ?_⟩
  · rw [taken?_of_awake call asleep, taken?_of_awake now awake, outcome]
    rfl
  · simpa only [Machine.move, after, after'] using link
  · simp only [Machine.move, call?_step orderly call asleep, call?_step orderly' now awake,
      outcome, Progress.next?_rename]
  · rw [decided, decided', ledger]
  · rw [decided']
    simp only [Machine.move, after']
    exact Link.size_step_inbound inbound

variable (keeps : mv.keepsTo home realm = true)

include keeps

/-- A caller of the direction towards `s` does the same on both machines. -/
theorem Beside.move (orderly' : n.Orderly) (sorted : n.Sorted home realm)
    (mine : mv.isOf home s = true)
    (named : (Ledger.ofHistory s (m.events mv)).delivered ≠ [] →
      f n.link.messages.size = m.link.messages.size) :
    SameMove f home realm s n m mv := by
  cases mv with
  | takeTask i => cases keeps
  | begin who c =>
    obtain rfl : home who = s := of_decide_eq_true mine
    exact beside.begins orderly orderly' rfl keeps
  | rouse who =>
    have here : home who = s := of_decide_eq_true mine
    have call := beside.calls who here
    cases now : n.call? who with
    | none =>
      rw [now] at call
      refine ⟨rfl, ?_, rfl, ?_⟩ <;> simp only [Machine.move, rouse, call, now, Option.map_none]
      · exact beside
      · rfl
    | some c =>
      rw [now] at call
      have inbound := sorted _ ((call?_eq_some_iff orderly').1 now)
      rw [here] at inbound
      refine ⟨rfl, ?_, rfl, ?_⟩ <;> simp only [Machine.move, rouse, call, now, Option.map_some]
      · exact ⟨beside.link.rouse inbound, beside.calls⟩
      · exact Link.size_rouse _ _ _
  | step who pick =>
    have here : home who = s := of_decide_eq_true mine
    have call := beside.calls who here
    cases now : n.call? who with
    | none =>
      rw [now] at call
      refine ⟨?_, ?_, ?_, ?_⟩ <;>
        simp only [Machine.move, step, taken?, events, call, now, Option.map_none]
      · exact beside
      · rfl
      · rfl
    | some c =>
      have inbound := sorted _ ((call?_eq_some_iff orderly').1 now)
      rw [here] at inbound
      cases awake : n.link.isAsleep who c with
      | false => exact beside.steps orderly orderly' pick here inbound now awake named
      | true =>
        rw [now] at call
        have asleep : m.link.isAsleep who (c.rename f) = true :=
          (beside.link.isAsleep_eq inbound).trans awake
        refine ⟨?_, ?_, ?_, ?_⟩ <;>
          simp only [Machine.move, step, taken?, events, call, now, Option.map_some, asleep, awake,
            if_true, Option.map_none]
        · exact beside
        · rfl
        · rfl

/-- A caller of the other direction does nothing that can be seen here. -/
theorem Beside.move_other (sorted : m.Sorted home realm) (other : mv.isOf home s = false) :
    Beside f home realm s n (m.move mv) ∧ Ledger.ofHistory s (m.events mv) = .empty := by
  have one := moves orderly mv
  cases mv with
  | takeTask i => cases keeps
  | begin who c =>
    have there : home who ≠ s := of_decide_eq_false other
    refine ⟨⟨?_, fun x here => ?_⟩, rfl⟩
    · simp only [Machine.move, begin]
      split <;> exact beside.link
    · have apart : (Move.begin who c).who? ≠ some x := by
        rintro ⟨⟩
        exact there here
      rw [one.call?_other orderly apart]
      exact beside.calls x here
  | rouse who =>
    have there : home who ≠ s := of_decide_eq_false other
    simp only [Machine.move, rouse]
    cases now : m.call? who with
    | none => exact ⟨beside, rfl⟩
    | some c =>
      have inbound := sorted _ ((call?_eq_some_iff orderly).1 now)
      exact ⟨⟨beside.link.rouse_other inbound there, beside.calls⟩, rfl⟩
  | step who pick =>
    have there : home who ≠ s := of_decide_eq_false other
    cases now : m.call? who with
    | none =>
      simp only [Machine.move, step, events, now]
      exact ⟨beside, rfl⟩
    | some c =>
      have inbound := sorted _ ((call?_eq_some_iff orderly).1 now)
      cases awake : m.link.isAsleep who c with
      | true =>
        simp only [Machine.move, step, events, now, awake, if_true]
        exact ⟨beside, rfl⟩
      | false =>
        obtain ⟨link, ledger⟩ := beside.link.step_other inbound there pick
        obtain ⟨-, -, after, -⟩ := step_of_awake orderly now awake pick
        refine ⟨⟨?_, fun x here => ?_⟩, ?_⟩
        · simpa only [Machine.move, after] using link
        · have apart : (Move.step who pick : Move ρ η).who? ≠ some x := by
            rintro ⟨⟩
            exact there here
          rw [one.call?_other orderly apart]
          exact beside.calls x here
        · simp only [events, now, awake, Bool.false_eq_true, if_false]
          exact ledger

end Moves

/-! ## Every run -/

/-- The number of the message that is delivered on `s` as number `i`. -/
def numberIn (s : Side) (h : List (Event ρ η)) (i : Nat) : Nat :=
  (Ledger.ofHistory s h).delivered.getD i 0

/-- A message that a move delivers bears the next number of the whole history. -/
theorem numberIn_history {front : List (Move ρ η)}
    (some : (Ledger.ofHistory s ((m.run front).events mv)).delivered ≠ [])
    (later : List (Move ρ η)) :
    numberIn s (m.history (front ++ [mv] ++ later))
        (Ledger.ofHistory s (m.history front)).delivered.length =
      (m.run front).link.messages.size := by
  have whole : (Ledger.ofHistory s (m.history (front ++ [mv] ++ later))).delivered =
      (Ledger.ofHistory s (m.history front)).delivered ++
        (m.run front).link.messages.size ::
          (Ledger.ofHistory s ((m.run (front ++ [mv])).history later)).delivered := by
    rw [history_append, history_append, Ledger.ofHistory_append, Ledger.ofHistory_append]
    simp [Ledger.append, history, delivered_move s mv some]
  rw [numberIn, whole, List.getD_eq_getElem?_getD, List.getElem?_append_right (Nat.le_refl _),
    Nat.sub_self]
  rfl

/-- The steps of the moves of one direction are those of its callers. -/
theorem filter_taken? (m : Machine ρ η) (mv : Move ρ η) :
    ((m.taken? mv).toList.filter fun x => home x.caller = s) =
      if mv.isOf home s then (m.taken? mv).toList else [] := by
  cases found : m.taken? mv with
  | none => simp
  | some x =>
    obtain ⟨⟨pick, rfl⟩, -⟩ := exists_of_taken? found
    by_cases mine : home x.caller = s <;> simp [Move.isOf, mine]

/-- What was done so far is the same for the callers of the direction towards `s`: in the run to
`m`, with the journal `j` and the history `h`, and in the run to `n`, with the journal `j'` and the
history `h'`. -/
structure Abreast (f : Nat → Nat) (home realm : Nat → Side) (s : Side) (j j' : List (Taken ρ η))
    (h h' : List (Event ρ η)) (n m : Machine ρ η) : Prop where
  beside : Beside f home realm s n m
  journal : (j.filter fun x => home x.caller = s) = j'.map (Taken.rename f)
  ledger : Ledger.ofHistory s h = (Ledger.ofHistory s h').rename f
  /-- All messages there are were delivered on `s`. -/
  size : n.link.messages.size = (Ledger.ofHistory s h').delivered.length

section Abreast

variable {j j' : List (Taken ρ η)} {h h' : List (Event ρ η)}
  (abreast : Abreast f home realm s j j' h h' n m)

include abreast

theorem Abreast.move_own (same : SameMove f home realm s n m mv) (mine : mv.isOf home s = true) :
    Abreast f home realm s (j ++ (m.taken? mv).toList) (j' ++ (n.taken? mv).toList)
      (h ++ m.events mv) (h' ++ n.events mv) (n.move mv) (m.move mv) where
  beside := same.beside
  journal := by
    rw [List.filter_append, List.map_append, abreast.journal, filter_taken?, if_pos mine,
      same.taken]
    cases n.taken? mv <;> rfl
  ledger := by
    rw [Ledger.ofHistory_append, Ledger.ofHistory_append, Ledger.rename_append, abreast.ledger,
      same.ledger]
  size := by
    rw [same.size, abreast.size, Ledger.ofHistory_append, Ledger.append, List.length_append]

theorem Abreast.move_other (beside : Beside f home realm s n (m.move mv))
    (none : Ledger.ofHistory s (m.events mv) = .empty) (other : mv.isOf home s = false) :
    Abreast f home realm s (j ++ (m.taken? mv).toList) j' (h ++ m.events mv) h' n (m.move mv) where
  beside := beside
  journal := by
    rw [List.filter_append, abreast.journal, filter_taken?, if_neg (Bool.eq_false_iff.1 other),
      List.append_nil]
  ledger := by rw [Ledger.ofHistory_append, none, Ledger.append_empty, abreast.ledger]
  size := abreast.size

end Abreast

section Closing

variable {j : List (Taken ρ η)}

theorem closeActions_rename (f : Nat → Nat) (s : Side) (j : List (Taken ρ η)) :
    closeActions s (j.map (Taken.rename f)) = closeActions s j := by
  have same : ∀ c : Call ρ η, (c.rename f).closeStage? s = c.closeStage? s := fun c => by
    cases c <;> rfl
  simp [closeActions, List.filterMap_map, Function.comp_def, closerAt?, Taken.rename, same]

/-- Only callers of the direction towards `s` carry out a part of closing it. -/
theorem home_of_closerAt? {x : Taken ρ η} {part : Nat × CloseStage}
    (inbound : x.call.inbound realm (home x.caller) = true)
    (found : closerAt? s (x.caller, x.call) = some part) : home x.caller = s := by
  obtain ⟨stage, found, -⟩ := Option.map_eq_some_iff.1 found
  cases call : x.call with
  | closeEndpoint t | closeReport t | closeNotify t | closeComplete t =>
    rw [call] at inbound found
    simp only [Call.closeStage?, Option.ite_none_right_eq_some] at found
    exact (of_decide_eq_true inbound).symm.trans found.1
  | _ =>
    rw [call] at found
    cases found

theorem closeActions_own (inbound : ∀ x ∈ j, x.call.inbound realm (home x.caller) = true) :
    closeActions s (j.filter fun x => home x.caller = s) = closeActions s j := by
  induction j with
  | nil => rfl
  | cons x j ih =>
    have rest := ih fun y later => inbound y (List.mem_cons_of_mem _ later)
    simp only [closeActions] at rest ⊢
    by_cases mine : home x.caller = s
    · rw [List.filter_cons_of_pos (by simpa using mine), List.filterMap_cons, List.filterMap_cons,
        rest]
    · have none : closerAt? s (x.caller, x.call) = none := by
        cases found : closerAt? s (x.caller, x.call) with
        | none => rfl
        | some part => exact absurd (home_of_closerAt? (inbound x List.mem_cons_self) found) mine
      rw [List.filter_cons_of_neg (by simpa using mine), rest, List.filterMap_cons]
      simp only [none]

theorem notified_elsewhere (inbound : ∀ x ∈ j, x.call.inbound realm (home x.caller) = true)
    (elsewhere : ∀ x ∈ j, home x.caller ≠ s) : notified s j = 0 := by
  have none : (j.filter fun x => home x.caller = s) = [] := by
    simpa [List.filter_eq_nil_iff] using elsewhere
  rw [notified, ← closeActions_own inbound, none]
  rfl

end Closing

section Run

variable (config : Config) (first : String) (second : Option String) (tokens signals : Nat)
  {schedule : List (Move ρ η)} (keeps : ∀ mv ∈ schedule, mv.keepsTo home realm = true) (s : Side)

include keeps

/-- The callers of one direction, alone, do what they do among the others. -/
theorem abreast_run {front : List (Move ρ η)} (earlier : front <+: schedule) :
    let pair : Machine ρ η := fresh config first second tokens signals
    let own := front.filter (Move.isOf home s)
    Abreast (numberIn s (pair.history schedule)) home realm s (pair.journal front)
      (pair.journal own) (pair.history front) (pair.history own) (pair.run own)
      (pair.run front) := by
  intro pair own
  have start : pair.Orderly := orderly_fresh config first second tokens signals
  induction front using List.reverseRecOn with
  | nil =>
    refine ⟨⟨⟨?_, rfl, fun _ _ => rfl, rfl⟩, fun _ _ => rfl⟩, rfl, rfl, rfl⟩
    show pair.link.endpoint s = (pair.link.endpoint s).rename _ id
    rw [endpoint_fresh]
    rfl
  | append_singleton front mv ih =>
    have abreast := ih ((List.prefix_append _ _).trans earlier)
    have mem : ∀ mv' ∈ front ++ [mv], mv' ∈ schedule := fun mv' here => earlier.subset here
    have keep := keeps mv (mem mv (List.mem_append_right _ List.mem_cons_self))
    have orderly := orderly_run start front
    have after : own = front.filter (Move.isOf home s) ++ [mv].filter (Move.isOf home s) :=
      List.filter_append ..
    cases mine : mv.isOf home s with
    | true =>
      have sorted : (pair.run (front.filter (Move.isOf home s))).Sorted home realm :=
        sorted_run config first second tokens signals fun mv' here =>
          keeps mv' (mem mv' (List.mem_append_left _ (List.mem_filter.1 here).1))
      -- The message that is delivered now is the next one that the whole history names.
      have named : (Ledger.ofHistory s ((pair.run front).events mv)).delivered ≠ [] →
          numberIn s (pair.history schedule)
              (pair.run (front.filter (Move.isOf home s))).link.messages.size =
            (pair.run front).link.messages.size := by
        intro some
        obtain ⟨later, rfl⟩ := earlier
        have before := congrArg (fun g : Ledger ρ => g.delivered.length) abreast.ledger
        simp only [Ledger.rename, List.length_map] at before
        rw [abreast.size, ← before]
        exact numberIn_history some later
      have both := abreast.move_own (abreast.beside.move orderly keep
        (orderly_run start (front.filter (Move.isOf home s))) sorted mine named) mine
      have one : [mv].filter (Move.isOf home s) = [mv] := by simp [mine]
      rw [after, one, run_append, run_append, journal_append, journal_append, history_append,
        history_append]
      simpa [Machine.journal, Machine.history, Machine.run] using both
    | false =>
      have sorted : (pair.run front).Sorted home realm :=
        sorted_run config first second tokens signals fun mv' here =>
          keeps mv' (mem mv' (List.mem_append_left _ here))
      obtain ⟨beside, none⟩ := abreast.beside.move_other orderly keep sorted mine
      have absent : [mv].filter (Move.isOf home s) = [] := by simp [mine]
      rw [after, absent, List.append_nil, run_append, journal_append, history_append]
      simpa [Machine.journal, Machine.history, Machine.run] using
        abreast.move_other beside none mine

omit s in
/-- Every step along the schedule is in the direction of its caller. -/
theorem inbound_of_mem_journal {x : Taken ρ η}
    (here : x ∈ (fresh config first second tokens signals : Machine ρ η).journal schedule) :
    x.call.inbound realm (home x.caller) = true := by
  induction schedule using List.reverseRecOn with
  | nil => cases here
  | append_singleton front mv ih =>
    have before : ∀ mv' ∈ front, mv'.keepsTo home realm = true := fun mv' earlier =>
      keeps mv' (List.mem_append_left _ earlier)
    rw [journal_append] at here
    rcases List.mem_append.1 here with old | new
    · exact ih before old
    · simp only [Machine.journal, List.append_nil, Option.mem_toList] at new
      have orderly := orderly_run
        (orderly_fresh (ρ := ρ) (η := η) config first second tokens signals) front
      exact sorted_run config first second tokens signals before _
        ((call?_eq_some_iff orderly).1 (exists_of_taken? new).2)

/-- A side is closed by callers of the one direction only, so that what the contexts hear adds up.
-/
theorem notified_own :
    let pair : Machine ρ η := fresh config first second tokens signals
    notified s (pair.journal schedule) =
      notified s (pair.journal (schedule.filter (Move.isOf home .a))) +
        notified s (pair.journal (schedule.filter (Move.isOf home .b))) := by
  intro pair
  have journal (t : Side) : ((pair.journal schedule).filter fun x => home x.caller = t) =
      (pair.journal (schedule.filter (Move.isOf home t))).map
        (Taken.rename (numberIn t (pair.history schedule))) :=
    (abreast_run config first second tokens signals keeps t (List.prefix_refl _)).journal
  have here (t : Side) : notified t (pair.journal schedule) =
      notified t (pair.journal (schedule.filter (Move.isOf home t))) := by
    have inbound := fun y made =>
      inbound_of_mem_journal (x := y) config first second tokens signals keeps made
    rw [notified, ← closeActions_own inbound, journal, closeActions_rename, notified]
  have there (t : Side) :
      notified t.other (pair.journal (schedule.filter (Move.isOf home t))) = 0 := by
    refine notified_elsewhere (fun y made => inbound_of_mem_journal config first second tokens
      signals (fun mv mine => keeps mv (List.mem_filter.1 mine).1) made) fun y made away => ?_
    have renamed : y.rename (numberIn t (pair.history schedule)) ∈
        (pair.journal schedule).filter fun x => home x.caller = t := by
      rw [journal]
      exact List.mem_map_of_mem made
    have towards : home y.caller = t := of_decide_eq_true (List.mem_filter.1 renamed).2
    exact Side.ne_other t (towards.symm.trans away)
  cases s with
  | a => rw [here, show notified .a _ = 0 from there .b, Nat.add_zero]
  | b => rw [here, show notified .b _ = 0 from there .a, Nat.zero_add]

end Run

/-- What the callers of the direction towards `s` find in the run to `m`, with the journal `j` and
the history `h`, is what they find in the run to `n`, with the journal `j'` and the history `h'`,
but for the numbers of messages. -/
structure Undisturbed (f : Nat → Nat) (home : Nat → Side) (s : Side) (j j' : List (Taken ρ η))
    (h h' : List (Event ρ η)) (m n : Machine ρ η) : Prop where
  /-- They take the same steps with the same outcomes. -/
  results : (j.filter fun x => home x.caller = s) = j'.map (Taken.rename f)
  /-- They have come equally far in their calls, and the same of them can go on. -/
  calls : ∀ who, home who = s →
    m.call? who = (n.call? who).map (Call.rename f) ∧ m.canStep who = n.canStep who
  /-- The same messages and receivers were taken, and the same was dispatched. -/
  ledger : Ledger.ofHistory s h = (Ledger.ofHistory s h').rename f
  /-- The mailbox, the waiting receiver, the flag and the waiting writers are the same. -/
  endpoint : m.link.endpoint s = (n.link.endpoint s).rename f id
  /-- The close state is the same. -/
  closing : m.link.closing s = n.link.closing s
  /-- The executor was handed the same for that side. -/
  tasks : m.link.tasks.filter (Task.isFor s) = n.link.tasks.map (Task.rename f)

/-- The two directions do not interfere. Take any schedule in which every caller keeps to one
direction, no token is shared and no task is started. Whoever goes towards `s` does in it what
happens when the moves of the others are left out, up to the numbers of messages: message `i` there
is the one delivered on `s` as number `i` here. A context counts what both directions tell it. -/
theorem directions_independent (config : Config) (first : String) (second : Option String)
    (tokens signals : Nat) (home realm : Nat → Side) (schedule : List (Move ρ η))
    (keeps : ∀ mv ∈ schedule, mv.keepsTo home realm = true) :
    let pair : Machine ρ η := fresh config first second tokens signals
    let h := pair.history schedule
    let own (s : Side) := schedule.filter (Move.isOf home s)
    (∀ s, Undisturbed (numberIn s h) home s (pair.journal schedule) (pair.journal (own s)) h
        (pair.history (own s)) (pair.run schedule) (pair.run (own s)) ∧
      (Ledger.ofHistory s h).delivered.Nodup) ∧
    ∀ x, ((pair.run schedule).link.context x).remoteClosed =
      ((pair.run (own .a)).link.context x).remoteClosed +
        ((pair.run (own .b)).link.context x).remoteClosed := by
  intro pair h own
  have keeps' (s : Side) : ∀ mv ∈ own s, mv.keepsTo home realm = true := fun mv here =>
    keeps mv (List.mem_filter.1 here).1
  have sorted (s : Side) : (pair.run (own s)).Sorted home realm :=
    sorted_run config first second tokens signals (keeps' s)
  have orderly (moves : List (Move ρ η)) : (pair.run moves).Orderly :=
    orderly_run (orderly_fresh config first second tokens signals) moves
  constructor
  · intro s
    obtain ⟨beside, journal, ledger, -⟩ :=
      abreast_run config first second tokens signals keeps s (List.prefix_refl schedule)
    have calls := fun who here => And.intro (beside.calls who here)
      (beside.canStep_eq (orderly (own s)) (sorted s) here)
    exact ⟨⟨journal, calls, ledger, beside.link.endpoint, beside.link.closing,
        beside.link.tasks⟩,
      (numbered_run config first second tokens signals schedule s).distinct⟩
  · intro x
    have told (s : Side) := notified_own config first second tokens signals keeps s
    rw [remoteClosed_run, remoteClosed_run, remoteClosed_run]
    cases second with
    | none => exact (congrArg₂ _ (told .a) (told .b)).trans (Nat.add_add_add_comm ..)
    | some name => exact told x.other

/-- Callers with an odd number go towards side `b`, and the others towards side `a`. Caller 1 writes
message 0 and caller 2 writes message 1, each is received on the other side, and then both sides are
closed, all at the same time. -/
def crossing : List (Move Nat Nat) :=
  [.begin 1 (.write .a none false), .begin 2 (.write .b none false), .step 1 0, .step 2 0,
    .begin 4 (.receive .a 40), .begin 3 (.receive .b 30), .step 4 0, .step 3 0, .step 3 0,
    .step 4 0, .begin 5 (.close .b), .begin 6 (.close .a), .step 5 0, .step 6 0, .step 6 0,
    .step 5 0, .step 5 0, .step 6 0, .step 5 0, .step 6 0, .step 5 0, .step 6 0]

/-- The side that a caller of `crossing` goes towards. -/
def heading (who : Nat) : Side := if who % 2 = 0 then .a else .b

/-- Along `crossing` receiver 40 gets message 1. Alone it gets that message as number 0, nothing
else is different for side `a`, and the shared context counts one closure instead of two. -/
theorem counts_add_up_after_crossing :
    ∃ pair : Machine Nat Nat, pair = fresh ⟨1, 4⟩ "pair" none 0 0 ∧
      ∃ alone, alone = crossing.filter (Move.isOf heading .a) ∧
        (Ledger.ofHistory .a (pair.history alone)).dispatched = [⟨40, .message 0⟩] ∧
        (Ledger.ofHistory .a (pair.history crossing)).dispatched = [⟨40, .message 1⟩] ∧
        (pair.run crossing).link.closing .a = (pair.run alone).link.closing .a ∧
        ((pair.run alone).link.context .a).remoteClosed = 1 ∧
        ((pair.run crossing).link.context .a).remoteClosed = 2 := by
  have keeps : ∀ mv ∈ crossing, mv.keepsTo heading heading = true := by decide
  obtain ⟨apart, sums⟩ := directions_independent (ρ := Nat) (η := Nat) ⟨1, 4⟩ "pair" none 0 0
    heading heading crossing keeps
  obtain ⟨⟨-, -, ledger, -, closing, -⟩, -⟩ := apart .a
  refine ⟨_, rfl, _, rfl, by decide +kernel, ?_, closing, by decide +kernel, ?_⟩
  · rw [ledger]
    decide +kernel
  · rw [sums]
    decide +kernel

end Machine

end Loopback
