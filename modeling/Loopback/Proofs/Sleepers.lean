import Loopback.Proofs.Attempts
import Loopback.Proofs.Schedule
import Mathlib.Data.List.Perm.Basic

/-!
# Who sleeps where

A writer that waits at an endpoint is in a call that says so, and has an entry in the registry of
its token. `Machine.Booked` states both as equalities of multisets: the writers waiting at an
endpoint, woken or not, are those of the calls that slept there, and the registry of a token holds
one entry for each call that sleeps under it. Every move keeps the books
(`Machine.Booked.of_moves`).
-/

namespace Loopback

/-- One entry for `place` leaves the registry. -/
theorem Token.parked_unpark {ι : Type} [BEq ι] [LawfulBEq ι] {place : ι} {t : Token ι}
    (h : place ∈ t.parked) : t.parked.Perm (place :: (t.unpark place).parked) := by
  obtain ⟨i, hi⟩ := Option.isSome_iff_exists.1 (List.isSome_idxOf?.2 h)
  obtain ⟨hlt, hat, -⟩ := List.idxOf?_eq_some_iff.1 hi
  have hne : t.parked ≠ [] := List.ne_nil_of_mem h
  have entry : (t.unpark place).parked = (t.parked.set i (t.parked.getLast hne)).dropLast := by
    simp only [unpark, hi, List.getLast?_eq_some_getLast hne]
  have hne' : t.parked.set i (t.parked.getLast hne) ≠ [] := by simpa using hne
  have final : (t.parked.set i (t.parked.getLast hne)).getLast hne' = t.parked.getLast hne := by
    simp only [List.getLast_eq_getElem, List.length_set, List.getElem_set]
    split <;> rfl
  -- Both lists are the updated registry less its last entry.
  have swapped : (t.parked.getLast hne :: (t.unpark place).parked).Perm
      (t.parked.getLast hne :: t.parked.eraseIdx i) := by
    refine (List.perm_append_singleton _ _).symm.trans ?_
    have whole := List.dropLast_append_getLast hne'
    rw [final] at whole
    rw [entry, whole]
    exact List.set_perm_cons_eraseIdx hlt _
  have front := List.getElem_cons_eraseIdx_perm hlt
  rw [hat] at front
  exact front.symm.trans (swapped.cons_inv.symm.cons _)

/-- What an attempt that ends in sleep adds to a book: the one entry `x`. -/
def Entry.ifAsleep {ρ α : Type} (x : α) : Entry ρ → List α
  | .sleeps => [x]
  | _ => []

namespace Endpoint

variable {ρ μ : Type} {pick : Nat} {m : μ} {e e' : Endpoint ρ μ}

theorem Attempt.waiting_perm {w : Writer} {interrupted : Bool} {entry : Entry ρ}
    (h : Attempt pick w interrupted m e e' entry) :
    e'.writers.waiting.Perm (entry.ifAsleep w ++ e.writers.waiting) := by
  cases h with
  | closed | interrupted => exact .refl _
  | handed | queued => exact Condition.waiting_notifyOne _ _
  | sleeps => exact Condition.waiting_sleep _ _

/-- A writer that runs again no longer waits, unless it falls asleep once more. -/
theorem waiting_resume {w : Writer} {interrupted : Bool} (h : w ∈ e.writers.woken) :
    (w :: (e.resume pick w interrupted m).1.writers.waiting).Perm
      ((e.resume pick w interrupted m).2.ifAsleep w ++ e.writers.waiting) := by
  have left := e.writers.waiting_leave h
  cases interrupted with
  | true =>
    rw [resume_interrupted]
    exact ((Condition.waiting_notifyOne _ _).cons w).trans left.symm
  | false =>
    rw [resume_again]
    -- The writer gives its place up before it starts over.
    refine ((attempt_enter pick w false m _).waiting_perm.cons w).trans ?_
    exact List.perm_middle.symm.trans (left.symm.append_left _)

theorem Registering.waiting_perm {r : ρ} {answer : Registration ρ μ}
    (h : Registering pick r e e' answer) : e'.writers.waiting.Perm e.writers.waiting := by
  cases h with
  | refused | finish => exact .refl _
  | message | waits => exact Condition.waiting_notifyOne _ _

theorem Stopping.waiting_perm {d? : Option (Dispatch ρ μ)} (h : Stopping e e' d?) :
    e'.writers.waiting.Perm e.writers.waiting := by
  cases h with
  | again => exact .refl _
  | ends | quietly => exact Condition.waiting_notifyAll _

/-- Nothing but an attempt to write changes who waits. -/
theorem waiting_after {h : Hold ρ} (other : h.isAttempt = false) :
    (e.after pick m h).writers.waiting.Perm e.writers.waiting := by
  cases h with
  | enter w i => simp [Hold.isAttempt] at other
  | resume w i => simp [Hold.isAttempt] at other
  | register r => exact (registering_register pick r e).waiting_perm
  | shutDown => exact (stopping_shutDown e).waiting_perm
  | closeOff => exact Condition.waiting_notifyAll _
  | wakeWriters => exact Condition.waiting_notifyAll _
  | rouse i => exact Condition.waiting_rouse _ _

end Endpoint

/-! ## The books -/

namespace Call

variable {ρ η : Type}

/-- The writer that waits at the endpoint of `s` because of a call that slept there. -/
def sleeper? (s : Side) : Nat × Call ρ η → Option Writer
  | (who, .write source token true) => if source.other = s then some ⟨who, token⟩ else none
  | _ => none

/-- The entry that a call which slept has in the registry of the token `t`. -/
def place? (t : Nat) : Nat × Call ρ η → Option Side
  | (_, .write source (some u) true) => if u = t then some source.other else none
  | _ => none

/-- Who sleeps at an endpoint is in the write that slept there. -/
theorem eq_of_sleeper? {s : Side} {x : Nat × Call ρ η} {w : Writer} (h : sleeper? s x = some w) :
    x = (w.caller, .write s.other w.token true) := by
  obtain ⟨who, c⟩ := x
  cases c with
  | write source token woken =>
    cases woken with
    | false => cases h
    | true =>
      obtain ⟨rfl, rfl⟩ : source.other = s ∧ ⟨who, token⟩ = w := by
        simpa [sleeper?, Option.ite_none_right_eq_some] using h
      rw [Side.other_other]
  | _ => cases h

/-- Who sleeps under a token has an entry in its registry, for the place where it sleeps. -/
theorem place?_of_sleeper? {s : Side} {x : Nat × Call ρ η} {w : Writer} {t : Nat}
    (h : sleeper? s x = some w) (under : w.token = some t) : place? t x = some s := by
  rw [eq_of_sleeper? h, under]
  simp [place?]

/-- The call waits at no endpoint. -/
def isElsewhere : Call ρ η → Bool
  | .write _ _ true => false
  | _ => true

theorem sleeper?_of_isElsewhere {c : Call ρ η} (h : c.isElsewhere = true) (s : Side) (who : Nat) :
    sleeper? s (who, c) = none := by
  cases c with
  | write source token woken => cases woken <;> simp_all [isElsewhere, sleeper?]
  | _ => rfl

theorem place?_of_isElsewhere {c : Call ρ η} (h : c.isElsewhere = true) (t who : Nat) :
    place? t (who, c) = none := by
  cases c with
  | write source token woken =>
    cases woken <;> cases token <;> simp_all [isElsewhere, place?]
  | _ => rfl

/-- Only a write goes on as one that slept. -/
theorem Follows.isElsewhere {c c' : Call ρ η} (h : c.Follows c') (other : c.isWrite = false) :
    c'.isElsewhere = true := by
  cases h with
  | sleeps => simp [isWrite] at other
  | _ => rfl

theorem isElsewhere_of_not_isWrite {c : Call ρ η} (h : c.isWrite = false) :
    c.isElsewhere = true := by
  cases c with
  | write source token woken => simp [isWrite] at h
  | _ => rfl

theorem isElsewhere_of_isEntry {c : Call ρ η} (h : c.isEntry = true) : c.isElsewhere = true := by
  cases c with
  | write source token woken => cases woken <;> simp_all [isEntry, isElsewhere]
  | _ => rfl

end Call

namespace Machine

variable {ρ η : Type} {m m' : Machine ρ η}

/-- The books of a machine: who waits at an endpoint, and what stands in a registry. -/
structure Booked (m : Machine ρ η) : Prop where
  sleepers : ∀ s, (m.link.endpoint s).writers.waiting.Perm (m.calls.filterMap (Call.sleeper? s))
  registry : ∀ (t : Nat) (token : Token Side), m.link.tokens[t]? = some token →
    token.parked.Perm (m.calls.filterMap (Call.place? t))

end Machine

namespace Link

variable {ρ η : Type} (l : Link ρ η)

/-- The writer of an attempt that slept, in the call it goes on with. -/
theorem sleepers_finishWrite (who : Nat) (source : Side) (token : Option Nat)
    (e : Endpoint ρ Nat) (entry : Entry ρ) (s : Side) :
    ((l.finishWrite source token e entry).2.next?.toList.map (who, ·)).filterMap
        (Call.sleeper? s) =
      if source.other = s then entry.ifAsleep ⟨who, token⟩ else [] := by
  cases entry with
  | sleeps =>
    by_cases h : source.other = s <;>
      simp [finishWrite, Progress.next?, Call.sleeper?, Entry.ifAsleep, h]
  | _ => simp [finishWrite, Progress.next?, Call.sleeper?, Entry.ifAsleep]

/-- The entry of an attempt that slept, in the call it goes on with. -/
theorem places_finishWrite (who : Nat) (source : Side) (token : Option Nat)
    (e : Endpoint ρ Nat) (entry : Entry ρ) (t : Nat) :
    ((l.finishWrite source token e entry).2.next?.toList.map (who, ·)).filterMap
        (Call.place? t) =
      if token = some t then entry.ifAsleep source.other else [] := by
  cases entry with
  | sleeps =>
    cases token with
    | none => simp [finishWrite, Progress.next?, Call.place?]
    | some u =>
      by_cases h : u = t <;> simp [finishWrite, Progress.next?, Call.place?, Entry.ifAsleep, h]
  | _ => simp [finishWrite, Progress.next?, Call.place?, Entry.ifAsleep]

/-- An attempt that ends in sleep is entered in the registry of its token. -/
theorem parked_finishWrite {source : Side} {token : Option Nat} {e : Endpoint ρ Nat}
    {entry : Entry ρ} {t : Nat} {tok' : Token Side}
    (h : (l.finishWrite source token e entry).1.tokens[t]? = some tok') :
    ∃ tok, l.tokens[t]? = some tok ∧
      tok'.parked = tok.parked ++ if token = some t then entry.ifAsleep source.other else [] := by
  cases entry with
  | sleeps =>
    simp only [finishWrite, getElem?_modifyToken?, tokens_setEndpoint] at h
    split at h
    · next same =>
      obtain ⟨tok, hu, rfl⟩ := Option.map_eq_some_iff.1 h
      exact ⟨tok, hu, by simp [same, Token.park, Entry.ifAsleep]⟩
    · next other => exact ⟨tok', h, by simp [other]⟩
  | _ => exact ⟨tok', h, by simp [Entry.ifAsleep]⟩

theorem registry_stepWrite {pick who : Nat} {source : Side} {token : Option Nat} {woken : Bool}
    {t : Nat} {tok' : Token Side}
    (entered : ∀ tok : Token Side, woken = true → token = some t → l.tokens[t]? = some tok →
      source.other ∈ tok.parked)
    (h : (l.step pick who (.write source token woken)).1.tokens[t]? = some tok') :
    ∃ tok, l.tokens[t]? = some tok ∧
      ((Call.place? t (who, (.write source token woken : Call ρ η))).toList ++ tok'.parked).Perm
        (((l.step pick who (.write source token woken)).2.next?.toList.map (who, ·)).filterMap
          (Call.place? t) ++ tok.parked) := by
  cases woken with
  | false =>
    rw [step, stepWrite_first] at h
    obtain ⟨tok, ht, parked⟩ := parked_finishWrite _ h
    refine ⟨tok, ht, ?_⟩
    rw [parked, step, stepWrite_first, places_finishWrite, Call.place?_of_isElsewhere rfl,
      Option.toList_none, List.nil_append]
    exact List.perm_append_comm
  | true =>
    rw [step, stepWrite_woken] at h
    -- The old entry leaves the registry before the attempt can make a new one.
    obtain ⟨tok₁, h₁, parked⟩ := parked_finishWrite _ h
    rw [parked, step, stepWrite_woken, places_finishWrite]
    rw [getElem?_modifyToken?] at h₁
    split at h₁
    · next same =>
      subst same
      obtain ⟨tok, ht, rfl⟩ := Option.map_eq_some_iff.1 h₁
      have left := Token.parked_unpark (entered tok rfl rfl ht)
      refine ⟨tok, ht, ?_⟩
      simp only [Call.place?, if_true, Option.toList_some, List.singleton_append]
      refine List.Perm.trans ?_ (left.symm.append_left _)
      exact (List.perm_append_comm.cons _).trans List.perm_middle.symm
    · next other =>
      have elsewhere : Call.place? t (who, (.write source token true : Call ρ η)) = none := by
        cases token with
        | none => rfl
        | some u => exact if_neg fun hu => other (congrArg some hu)
      refine ⟨tok₁, h₁, ?_⟩
      rw [elsewhere, if_neg other]
      simp

theorem sleepers_stepWrite {pick who : Nat} {source : Side} {token : Option Nat} {woken : Bool}
    (s : Side)
    (entered : woken = true → source.other = s → ⟨who, token⟩ ∈ (l.endpoint s).writers.woken) :
    ((Call.sleeper? s (who, (.write source token woken : Call ρ η))).toList ++
        ((l.step pick who (.write source token woken)).1.endpoint s).writers.waiting).Perm
      (((l.step pick who (.write source token woken)).2.next?.toList.map (who, ·)).filterMap
          (Call.sleeper? s) ++ (l.endpoint s).writers.waiting) := by
  cases woken with
  | false =>
    rw [step, stepWrite_first, sleepers_finishWrite, endpoint_finishWrite,
      Call.sleeper?_of_isElsewhere rfl]
    by_cases here : source.other = s
    · subst here
      rw [if_pos rfl, if_pos rfl]
      exact (Endpoint.attempt_enter pick _ _ _ _).waiting_perm
    · rw [if_neg here, if_neg fun h => here h.symm]
      exact .refl _
  | true =>
    rw [step, stepWrite_woken, sleepers_finishWrite, endpoint_finishWrite, endpoint_modifyToken?]
    by_cases here : source.other = s
    · subst here
      simp only [if_true, Call.sleeper?, Option.toList_some, List.singleton_append]
      exact Endpoint.waiting_resume (entered rfl rfl)
    · rw [if_neg here, if_neg fun h => here h.symm]
      simp [Call.sleeper?, here]

/-- No other call changes who waits at an endpoint. -/
theorem waiting_step {pick who : Nat} {c : Call ρ η} (other : c.isWrite = false) (s : Side) :
    ((l.step pick who c).1.endpoint s).writers.waiting.Perm
      (l.endpoint s).writers.waiting := by
  rw [endpoint_step]
  split
  · next t h hold =>
    split
    · next here =>
      subst here
      exact Endpoint.waiting_after ((Call.isAttempt_of_hold? hold).trans other)
    · exact .refl _
  · exact .refl _

/-- No other call changes a registry. -/
theorem parked_step {pick who : Nat} {c : Call ρ η} (other : c.isWrite = false) {t : Nat}
    {tok' : Token Side} (h : (l.step pick who c).1.tokens[t]? = some tok') :
    ∃ tok, l.tokens[t]? = some tok ∧ tok'.parked = tok.parked := by
  have flagged : ∀ (u : Nat) (f : Token Side → Token Side), (∀ x, (f x).parked = x.parked) →
      (l.tokens.modify u f)[t]? = some tok' →
        ∃ tok, l.tokens[t]? = some tok ∧ tok'.parked = tok.parked := by
    intro u f hf h
    rw [Array.getElem?_modify] at h
    split at h
    · obtain ⟨tok, ht, rfl⟩ := Option.map_eq_some_iff.1 h
      exact ⟨tok, ht, hf tok⟩
    · exact ⟨tok', h, rfl⟩
  rw [(step_frame l pick who other).1] at h
  split at h
  · exact flagged _ Token.interrupt (fun _ => rfl) h
  · exact flagged _ (fun token => token.clear.1) (fun _ => rfl) h
  · exact ⟨tok', h, rfl⟩

/-- A step moves writers between the calls and those who wait at an endpoint, and loses none. -/
theorem sleepers_step {pick who : Nat} {c : Call ρ η} (s : Side)
    (entered : ∀ source token, c = .write source token true → source.other = s →
      ⟨who, token⟩ ∈ (l.endpoint s).writers.woken) :
    ((Call.sleeper? s (who, c)).toList ++
        ((l.step pick who c).1.endpoint s).writers.waiting).Perm
      (((l.step pick who c).2.next?.toList.map (who, ·)).filterMap (Call.sleeper? s) ++
        (l.endpoint s).writers.waiting) := by
  cases other : c.isWrite with
  | true =>
    cases c with
    | write source token woken =>
      exact sleepers_stepWrite l s fun hw => entered source token (by rw [hw])
    | _ => simp [Call.isWrite] at other
  | false =>
    rw [Call.sleeper?_of_isElsewhere (Call.isElsewhere_of_not_isWrite other)]
    cases hc : (l.step pick who c).2.next? with
    | none => simpa using waiting_step l other s
    | some c' =>
      have elsewhere := (follows_step hc).isElsewhere other
      simpa [Call.sleeper?_of_isElsewhere elsewhere] using waiting_step l other s

/-- A step moves entries between the calls and the registry of a token, and loses none: what the
call had there and what is there afterwards are what the call has there afterwards and what was
there. -/
theorem registry_step {pick who : Nat} {c : Call ρ η} {t : Nat} {tok' : Token Side}
    (entered : ∀ source tok, c = .write source (some t) true → l.tokens[t]? = some tok →
      source.other ∈ tok.parked)
    (h : (l.step pick who c).1.tokens[t]? = some tok') :
    ∃ tok, l.tokens[t]? = some tok ∧
      ((Call.place? t (who, c)).toList ++ tok'.parked).Perm
        (((l.step pick who c).2.next?.toList.map (who, ·)).filterMap (Call.place? t) ++
          tok.parked) := by
  cases other : c.isWrite with
  | true =>
    cases c with
    | write source token woken =>
      refine registry_stepWrite l ?_ h
      intro tok hw ht
      exact entered source tok (by rw [hw, ht])
    | _ => simp [Call.isWrite] at other
  | false =>
    obtain ⟨tok, ht, same⟩ := parked_step l other h
    refine ⟨tok, ht, ?_⟩
    rw [Call.place?_of_isElsewhere (Call.isElsewhere_of_not_isWrite other), same]
    cases hc : (l.step pick who c).2.next? with
    | none => exact .refl _
    | some c' =>
      have elsewhere := (follows_step hc).isElsewhere other
      simp [Call.place?_of_isElsewhere elsewhere]

end Link

namespace Machine

variable {ρ η : Type} {m m' : Machine ρ η}

/-- Whoever waits at an endpoint is in the write that slept there. -/
theorem Booked.mem_calls (h : m.Booked) {s : Side} {w : Writer}
    (waits : w ∈ (m.link.endpoint s).writers.waiting) :
    (w.caller, .write s.other w.token true) ∈ m.calls := by
  obtain ⟨x, here, entry⟩ := List.mem_filterMap.1 ((h.sleepers s).mem_iff.1 waits)
  exact Call.eq_of_sleeper? entry ▸ here

/-- A writer whose call slept and that may run again stands among the woken writers. -/
theorem Booked.mem_woken (h : m.Booked) {who : Nat} {source : Side} {token : Option Nat}
    (now : (who, .write source token true) ∈ m.calls)
    (awake : m.link.isAsleep who (.write source token true) = false) :
    ⟨who, token⟩ ∈ (m.link.endpoint source.other).writers.woken := by
  have waits : (⟨who, token⟩ : Writer) ∈ (m.link.endpoint source.other).writers.waiting := by
    refine (h.sleepers source.other).mem_iff.2 (List.mem_filterMap.2 ⟨_, now, ?_⟩)
    exact if_pos rfl
  rcases List.mem_append.1 waits with asleep | woken
  · simp only [Link.isAsleep, List.any_eq_false, beq_iff_eq] at awake
    exact absurd rfl (awake _ asleep)
  · exact woken

theorem booked_fresh (config : Config) (first : String) (second : Option String)
    (tokens signals : Nat) :
    (fresh config first second tokens signals : Machine ρ η).Booked where
  sleepers s := by
    cases s <;> exact .refl _
  registry t token h := by
    simp only [fresh, create, Array.getElem?_replicate] at h
    split at h
    · cases h
      exact .refl _
    · simp at h

/-- A book with an entry `f x` for each call `x` is kept by a step that exchanges the entries of the
call it carries out. -/
theorem book_of_step {α κ : Type} (f : κ → Option α) {x : κ} {before after : List α}
    {calls calls' next rest : List κ}
    (now : calls.Perm (x :: rest)) (later : calls'.Perm (next ++ rest))
    (start : before.Perm (calls.filterMap f))
    (step : ((f x).toList ++ after).Perm (next.filterMap f ++ before)) :
    after.Perm (calls'.filterMap f) := by
  have old : before.Perm ((f x).toList ++ rest.filterMap f) := by
    refine (start.trans (now.filterMap f)).trans ?_
    cases hf : f x <;> simp [hf]
  have new : (next.filterMap f ++ rest.filterMap f).Perm (calls'.filterMap f) := by
    rw [← List.filterMap_append]
    exact (later.filterMap f).symm
  -- The entries of the other calls stand on both sides.
  refine List.Perm.trans ((List.perm_append_left_iff (f x).toList).1 ?_) new
  refine (step.trans (old.append_left _)).trans ?_
  rw [← List.append_assoc, ← List.append_assoc]
  exact List.perm_append_comm.append_right _

/-- Every move keeps the books. -/
theorem Booked.of_moves (h : m.Booked) {mv : Move ρ η} {es : List (Event ρ η)}
    (hm : Moves m mv m' es) : m'.Booked := by
  cases hm with
  | stays => exact h
  | takes => exact ⟨h.sleepers, h.registry⟩
  | @begins who c idle entry free =>
    have elsewhere := Call.isElsewhere_of_isEntry entry
    constructor
    · intro s
      rw [List.filterMap_append, List.filterMap_cons, Call.sleeper?_of_isElsewhere elsewhere]
      simpa using h.sleepers s
    · intro t token ht
      rw [List.filterMap_append, List.filterMap_cons, Call.place?_of_isElsewhere elsewhere]
      simpa using h.registry t token ht
  | rouses now =>
    refine ⟨?_, fun t token ht => h.registry t token ?_⟩
    -- Whoever is roused still waits, now as a woken writer.
    · intro s
      refine List.Perm.trans ?_ (h.sleepers s)
      rcases m.link.endpoint_rouse _ _ s with same | ⟨i, roused⟩
      · rw [same]
      · rw [roused]
        exact Condition.waiting_rouse i _
    · exact (m.link.tokens_rouse _ _).symm ▸ ht
  | @steps who pick c rest calls now awake next =>
    have here : (who, c) ∈ m.calls := now.mem_iff.2 List.mem_cons_self
    constructor
    · intro s
      refine book_of_step _ now next (h.sleepers s) (m.link.sleepers_step s ?_)
      rintro source token rfl rfl
      exact h.mem_woken here awake
    · intro t token ht
      have entered : ∀ source tok, c = .write source (some t) true →
          m.link.tokens[t]? = some tok → source.other ∈ tok.parked := by
        rintro source tok rfl htok
        refine (h.registry t tok htok).mem_iff.2 (List.mem_filterMap.2 ⟨_, here, ?_⟩)
        exact if_pos rfl
      obtain ⟨tok, htok, step⟩ := m.link.registry_step entered ht
      exact book_of_step _ now next (h.registry t tok htok) step

theorem Reachable.booked (h : m.Reachable) : m.Booked :=
  h.induct booked_fresh fun _ books one => books.of_moves one

end Machine

end Loopback
