import Loopback.Proofs.Callers
import Loopback.Proofs.ClosingOrder
import Loopback.Proofs.Draining

/-!
# Machines at rest

A machine is at rest when nobody can take a step: every call in progress sleeps. Then no writer is
woken, and whoever sleeps at an endpoint is held up there (`Machine.AtRest.holdsUp`). A machine in
which one call was begun comes to rest again: a call that never sleeps ends after a number of its
own steps, and every step of a woken writer leaves less to do at its endpoint, whether it goes back
to sleep or leaves and wakes another one (`Endpoint.unrest_resume_lt`). So whatever was done so far,
the callers can go on until all is settled (`Machine.exists_settled`).
-/

namespace Loopback

variable {ρ η : Type}

/-- An endpoint that holds writers up: it is open, its mailbox is full, and no receiver waits. -/
structure Endpoint.HoldsUp {μ : Type} (e : Endpoint ρ μ) : Prop where
  opened : e.closed = false
  full : e.mailbox.size = e.mailbox.capacity
  nobody : e.pending = none

namespace Call

/-- A call that may be asleep. -/
def isWaiting : Call ρ η → Bool
  | .write _ _ true | .awaitClosed _ | .await _ | .stream _ _ => true
  | _ => false

/-- A call that never sleeps. -/
def neverSleeps : Call ρ η → Bool
  | .write _ _ _ | .awaitClosed _ | .await _ | .stream _ _ => false
  | _ => true

end Call

namespace Machine

variable {m : Machine ρ η} {s : Side} {w : Writer}

/-- Nobody can take a step: every call in progress sleeps. -/
def AtRest (m : Machine ρ η) : Prop := ∀ x ∈ m.calls, m.link.isAsleep x.1 x.2 = true

/-! ## The calls of those who wait -/

/-- A caller waits once. -/
theorem Booked.nodup_callers (booked : m.Booked) (orderly : m.Orderly) (s : Side) :
    ((m.link.endpoint s).writers.waiting.map Writer.caller).Nodup := by
  have shorter : ∀ calls : List (Nat × Call ρ η),
      ((calls.filterMap (Call.sleeper? s)).map Writer.caller).Sublist (calls.map Prod.fst) := by
    intro calls
    induction calls with
    | nil => exact List.Sublist.refl _
    | cons x calls ih =>
      cases entry : Call.sleeper? s x with
      | none =>
        rw [List.filterMap_cons_none entry]
        exact ih.cons _
      | some w =>
        have own : w.caller = x.1 := by rw [Call.eq_of_sleeper? entry]
        rw [List.filterMap_cons_some entry, List.map_cons, List.map_cons, own]
        exact ih.cons_cons _
  rw [((booked.sleepers s).map Writer.caller).nodup_iff]
  exact orderly.callers.sublist (shorter m.calls)

/-- A woken writer is not asleep. -/
theorem Booked.awake_of_woken (booked : m.Booked) (orderly : m.Orderly)
    (woken : w ∈ (m.link.endpoint s).writers.woken) :
    m.link.isAsleep w.caller (.write s.other w.token true) = false := by
  have distinct := booked.nodup_callers orderly s
  rw [Condition.waiting, List.map_append, List.nodup_append] at distinct
  show (m.link.endpoint s.other.other).writers.asleep.any (·.caller == w.caller) = false
  rw [Side.other_other, List.any_eq_false]
  intro v asleep same
  exact distinct.2.2 _ (List.mem_map_of_mem asleep) _ (List.mem_map_of_mem woken) (eq_of_beq same)

/-! ## What holds at rest -/

theorem AtRest.woken_eq_nil (rest : m.AtRest) (reached : m.Reachable) (s : Side) :
    (m.link.endpoint s).writers.woken = [] := by
  refine List.eq_nil_iff_forall_not_mem.2 fun w woken => ?_
  have here := reached.booked.mem_calls (List.mem_append_right _ woken)
  have asleep := rest _ here
  rw [reached.booked.awake_of_woken reached.orderly woken] at asleep
  cases asleep

/-- At rest every call in progress is one that waits. -/
theorem AtRest.isWaiting (rest : m.AtRest) (reached : m.Reachable) {who : Nat} {c : Call ρ η}
    (here : (who, c) ∈ m.calls) : c.isWaiting = true := by
  have asleep := rest _ here
  cases c with
  | write source token woken =>
    -- The writer that sleeps is in a call that slept before, and a caller is in one call.
    obtain ⟨v, sleeps, same⟩ := List.any_eq_true.1 asleep
    obtain rfl := eq_of_beq same
    have there := reached.booked.mem_calls (List.mem_append_left _ sleeps)
    have one := (call?_of_mem reached.orderly here).symm.trans (call?_of_mem reached.orderly there)
    obtain rfl : woken = true := by
      injection one with one
      injection one
    rfl
  | awaitClosed | await | stream => rfl
  | _ => cases asleep

/-- A mailbox has room for one message at least. -/
theorem Reachable.capacity_pos (reached : m.Reachable) (s : Side) :
    0 < (m.link.endpoint s).mailbox.capacity := by
  obtain ⟨config, first, second, tokens, signals, schedule, rfl⟩ := reached
  rw [capacity_run config first second tokens signals schedule s]
  exact Nat.lt_of_lt_of_le Nat.one_pos (Nat.le_max_right _ _)

/-- Who sleeps at rest is held up. -/
theorem AtRest.holdsUp (rest : m.AtRest) (reached : m.Reachable)
    (blocked : (m.link.endpoint s).writers.asleep ≠ []) : (m.link.endpoint s).HoldsUp := by
  have covered := reached.covered s
  have slots := covered.slots blocked
  have fits := covered.fits
  rw [rest.woken_eq_nil reached s, List.length_nil] at slots
  refine ⟨?_, by omega, ?_⟩
  · cases shut : (m.link.endpoint s).closed with
    | false => rfl
    | true => exact absurd (covered.opened shut) blocked
  · have room := reached.capacity_pos s
    obtain ⟨config, first, second, tokens, signals, schedule, rfl⟩ := reached
    obtain ⟨ended, paired⟩ := paired_run config first second tokens signals schedule s
    cases waits : (((fresh config first second tokens signals).run schedule).link.endpoint
        s).pending with
    | none => rfl
    | some r =>
      -- A receiver waits at an empty mailbox only.
      rw [Mailbox.size, paired.empty_of_pending waits, List.length_nil] at slots
      omega

/-- Writers are held up behind a message that is queued. -/
theorem Reachable.front_of_holdsUp (reached : m.Reachable) (blocks : (m.link.endpoint s).HoldsUp) :
    ∃ oldest rest, (m.link.endpoint s).mailbox.queue = oldest :: rest := by
  have room := reached.capacity_pos s
  rw [← blocks.full, Mailbox.size] at room
  cases queue : (m.link.endpoint s).mailbox.queue with
  | nil =>
    rw [queue] at room
    cases room
  | cons oldest rest => exact ⟨oldest, rest, rfl⟩

/-- Nobody sleeps at rest under a token that is set. -/
theorem AtRest.not_interrupted (rest : m.AtRest) (reached : m.Reachable)
    (asleep : w ∈ (m.link.endpoint s).writers.asleep) : m.link.isInterrupted w.token = false := by
  cases under : w.token with
  | none => rfl
  | some t =>
    cases set : m.link.isInterrupted (some t) with
    | false => rfl
    | true =>
      obtain ⟨⟨who, c⟩, here, wakes⟩ := reached.heeded s w t asleep under set
      have waits := rest.isWaiting reached here
      cases c with
      | interruptCopy | interruptWake => cases waits
      | _ => exact wakes.elim

end Machine

/-! ## Coming to rest -/

namespace Endpoint

variable {μ : Type} {pick : Nat} {m : μ} {e e' : Endpoint ρ μ}

/-- What is left to do at an endpoint: each writer there can still leave, and each woken one has a
step to take. -/
def unrest (e : Endpoint ρ μ) : Nat := e.writers.waiting.length + e.writers.woken.length

theorem length_woken_notifyOne_le (c : Condition Writer) (pick : Nat) :
    (c.notifyOne pick).woken.length ≤ c.woken.length + 1 := by
  unfold Condition.notifyOne Condition.rouse
  split
  · exact Nat.le_succ _
  · rw [List.length_append, List.length_singleton]

/-- An attempt wakes one writer at most, and none when it ends in sleep. -/
theorem Attempt.woken_le {w : Writer} {interrupted : Bool} {entry : Entry ρ}
    (h : Attempt pick w interrupted m e e' entry) :
    e'.writers.woken.length + (entry.ifAsleep w).length ≤ e.writers.woken.length + 1 := by
  cases h with
  | closed | interrupted => exact Nat.le_succ _
  | handed | queued => exact length_woken_notifyOne_le _ _
  | sleeps => exact Nat.le_refl _

/-- A woken writer that takes its step leaves less to do. -/
theorem unrest_resume_lt {w : Writer} {interrupted : Bool} (woken : w ∈ e.writers.woken) :
    (e.resume pick w interrupted m).1.unrest < e.unrest := by
  have waiting : (w :: (e.resume pick w interrupted m).1.writers.waiting).length = _ :=
    (waiting_resume woken).length_eq
  have left : (e.writers.leave w).woken.length + 1 = e.writers.woken.length := by
    rw [Condition.leave, List.length_erase_of_mem woken]
    have := List.length_pos_of_mem woken
    omega
  rw [List.length_cons, List.length_append] at waiting
  cases interrupted with
  | true =>
    have next := length_woken_notifyOne_le (e.writers.leave w) pick
    rw [resume_interrupted] at waiting ⊢
    simp only [Entry.ifAsleep, List.length_nil, unrest, writers_notifyOne] at waiting ⊢
    omega
  | false =>
    have next := (attempt_enter pick w false m { e with writers := e.writers.leave w }).woken_le
    rw [resume_again] at waiting ⊢
    simp only [unrest] at next ⊢
    omega

end Endpoint

namespace Machine

variable {m : Machine ρ η} {s : Side} {w : Writer} {who : Nat}

/-- What is left to do for the writers at both endpoints. -/
def unrest (m : Machine ρ η) : Nat := (m.link.endpoint .a).unrest + (m.link.endpoint .b).unrest

theorem unrest_step_lt (reached : m.Reachable) (woken : w ∈ (m.link.endpoint s).writers.woken)
    (pick : Nat) : (m.step w.caller pick).1.unrest < m.unrest := by
  have orderly := reached.orderly
  have call := call?_of_mem orderly
    (reached.booked.mem_calls (List.mem_append_right _ woken))
  have awake := reached.booked.awake_of_woken orderly woken
  obtain ⟨-, -, link, -⟩ := step_of_awake orderly call awake pick
  have less : ((m.link.endpoint s).resume pick w (m.link.isInterrupted w.token)
      m.link.messages.size).1.unrest < _ := Endpoint.unrest_resume_lt woken
  rw [unrest, link, m.link.endpoint_step, m.link.endpoint_step]
  cases s with
  | a => exact Nat.add_lt_add_right less _
  | b => exact Nat.add_lt_add_left less _

/-- All is settled: the caller is in no call, and no writer is woken. -/
structure Settled (who : Nat) (m : Machine ρ η) : Prop where
  idle : m.call? who = none
  woken : ∀ s, (m.link.endpoint s).writers.woken = []

/-- The woken writers can take their steps until none is left. -/
theorem exists_settled_of_idle (reached : m.Reachable) (idle : m.call? who = none) :
    ∃ more : List (Move ρ η), (∀ mv ∈ more, ∃ x pick, mv = .step x pick) ∧
      (m.run more).Settled who := by
  induction bound : m.unrest using Nat.strong_induction_on generalizing m with
  | _ n ih =>
    by_cases settled : ∀ s, (m.link.endpoint s).writers.woken = []
    · exact ⟨[], fun mv here => absurd here List.not_mem_nil, idle, settled⟩
    · obtain ⟨s, some_woken⟩ := not_forall.1 settled
      obtain ⟨w, woken⟩ := List.exists_mem_of_ne_nil _ some_woken
      have less := unrest_step_lt reached woken 0
      have call := call?_of_mem reached.orderly
        (reached.booked.mem_calls (List.mem_append_right _ woken))
      have other : who ≠ w.caller := by
        rintro rfl
        cases idle.symm.trans call
      have still : (m.step w.caller 0).1.call? who = none :=
        (call?_step_other reached.orderly other 0).trans idle
      obtain ⟨more, steps, done⟩ := ih _ (bound ▸ less) (reached.run [.step w.caller 0]) still rfl
      refine ⟨.step w.caller 0 :: more, ?_, done⟩
      intro mv here
      rcases List.mem_cons.1 here with rfl | here
      · exact ⟨_, _, rfl⟩
      · exact steps mv here

/-- A caller in this call comes to the end of it by its own steps. -/
def Finishes (who : Nat) (c : Call ρ η) : Prop :=
  ∀ m : Machine ρ η, m.Orderly → m.call? who = some c →
    ∃ n, (m.run (List.replicate n (.step who 0))).call? who = none

theorem Finishes.of_next {c : Call ρ η} (awake : ∀ l : Link ρ η, l.isAsleep who c = false)
    (next : ∀ (l : Link ρ η) c', (l.step 0 who c).2.next? = some c' → Finishes who c') :
    Finishes who c := by
  intro m orderly call
  have after := call?_step orderly call (awake m.link) 0
  cases onward : (m.link.step 0 who c).2.next? with
  | none => exact ⟨1, after.trans onward⟩
  | some c' =>
    obtain ⟨n, done⟩ := next _ c' onward _ (orderly.of_moves (moves_step orderly who 0))
      (after.trans onward)
    exact ⟨n + 1, done⟩

theorem finishes_submit (tasks : List (Task ρ η)) (r : Result) :
    Finishes who (.submit tasks r) := by
  induction tasks with
  | nil =>
    refine .of_next (fun _ => rfl) fun l c' onward => ?_
    cases onward
  | cons t tasks ih =>
    refine .of_next (fun _ => rfl) fun l c' onward => ?_
    cases tasks with
    | nil => cases onward
    | cons t' tasks =>
      cases onward
      exact ih

theorem finishes_interruptWake (places : List Side) :
    Finishes who (.interruptWake places : Call ρ η) := by
  induction places with
  | nil =>
    refine .of_next (fun _ => rfl) fun l c' onward => ?_
    cases onward
  | cons s places ih =>
    refine .of_next (fun _ => rfl) fun l c' onward => ?_
    cases onward
    exact ih

theorem finishes_of_neverSleeps {c : Call ρ η} (never : c.neverSleeps = true) :
    Finishes who c := by
  have complete (s : Side) : Finishes who (.closeComplete s : Call ρ η) :=
    .of_next (fun _ => rfl) fun l c' onward => by
      cases onward
      exact finishes_submit _ _
  have notify (s : Side) : Finishes who (.closeNotify s : Call ρ η) :=
    .of_next (fun _ => rfl) fun l c' onward => by
      cases onward
      exact complete s
  have report (s : Side) : Finishes who (.closeReport s : Call ρ η) :=
    .of_next (fun _ => rfl) fun l c' onward => by
      cases onward
      exact notify s
  have endpoint (s : Side) : Finishes who (.closeEndpoint s : Call ρ η) :=
    .of_next (fun _ => rfl) fun l c' onward => by
      cases onward
      exact report s
  have copy (t : Nat) : Finishes who (.interruptCopy t : Call ρ η) :=
    .of_next (fun _ => rfl) fun l c' onward => by
      cases onward
      exact finishes_interruptWake _
  cases c with
  | write | awaitClosed | await | stream => cases never
  | submit tasks r => exact finishes_submit tasks r
  | interruptWake places => exact finishes_interruptWake places
  | closeComplete s => exact complete s
  | closeNotify s => exact notify s
  | closeReport s => exact report s
  | closeEndpoint s => exact endpoint s
  | interruptCopy t => exact copy t
  | interrupt t =>
    refine .of_next (fun _ => rfl) fun l c' onward => ?_
    cases onward
    exact copy t
  | close s =>
    refine .of_next (fun _ => rfl) fun l c' onward => ?_
    cases Link.follows_step onward with
    | closes => exact endpoint s
    | submits => exact finishes_submit _ _
  | _ =>
    refine .of_next (fun _ => rfl) fun l c' onward => ?_
    cases Link.follows_step onward with
    | submits => exact finishes_submit _ _

/-- Whoever is in a call that never sleeps can finish it, and the writers that are woken can go on
until none is left. -/
theorem exists_settled (reached : m.Reachable)
    (brisk : ∀ c, m.call? who = some c → c.neverSleeps = true) :
    ∃ more : List (Move ρ η), (∀ mv ∈ more, ∃ x pick, mv = .step x pick) ∧
      (m.run more).Settled who := by
  obtain ⟨n, idle⟩ : ∃ n, (m.run (List.replicate n (.step who 0))).call? who = none := by
    cases call : m.call? who with
    | none => exact ⟨0, call⟩
    | some c => exact finishes_of_neverSleeps (brisk c call) m reached.orderly call
  obtain ⟨more, steps, settled⟩ := exists_settled_of_idle (reached.run _) idle
  refine ⟨List.replicate n (.step who 0) ++ more, ?_, run_append m _ _ ▸ settled⟩
  intro mv here
  rcases List.mem_append.1 here with own | here
  · exact ⟨who, 0, List.eq_of_mem_replicate own⟩
  · exact steps mv here

end Machine

end Loopback
