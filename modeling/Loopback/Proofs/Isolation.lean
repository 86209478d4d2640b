import Loopback.Proofs.Handling
import Loopback.Proofs.Journal
import Loopback.Proofs.Pairing

/-!
# Messages are isolated

Whoever writes, reads, cancels or lets go of one message touches that message and the log, and
nothing else (`Machine.run_apart`), and what comes of it depends on that message alone
(`Machine.Alike.run`). So what is done to different messages can be done in either order. A message
that is queued keeps its place whatever is done to it, and goes to the receiver whose turn it is
(`Paired.turn`). `Machine.messages_isolated` puts these together.
-/

namespace Loopback

variable {ρ η : Type}

/-- The call is made on message `k`. -/
def Call.isOn (k : Nat) : Call ρ η → Bool
  | .stream j _ => j == k
  | _ => false

theorem Call.exists_of_isOn {k : Nat} {c : Call ρ η} (on : c.isOn k = true) :
    ∃ c₀, c = .stream k c₀ := by
  cases c with
  | stream j c₀ => exact ⟨c₀, by rw [beq_iff_eq.1 on]⟩
  | _ => cases on

@[simp] theorem Call.isOn_stream (k : Nat) (c : MessageCall) :
    (Call.stream k c : Call ρ η).isOn k = true := beq_self_eq_true k

theorem Call.isOn_ne {j k : Nat} (apart : j ≠ k) {c : Call ρ η} (on : c.isOn k = true) :
    c.isOn j = false := by
  obtain ⟨c₀, rfl⟩ := exists_of_isOn on
  exact beq_eq_false_iff_ne.2 apart.symm

/-- One of `users` makes the move, and a call that begins is made on message `k`. -/
def Move.isBy (users : Nat → Prop) (k : Nat) : Move ρ η → Prop
  | .begin who c => users who ∧ c.isOn k = true
  | .step who _ | .rouse who => users who
  | .takeTask _ => False

/-! ## One step on a message -/

namespace Link

/-- A link without its messages and its log: the endpoints, the close states, the contexts, the
tokens, the signals and the tasks. -/
def bare (l : Link ρ η) : Link ρ η := { l with messages := #[], log := [] }

/-- Nothing but message `k` changed, and no line was added to the log but for cancellations. -/
structure ApartFrom (k : Nat) (l l' : Link ρ η) : Prop where
  bare : l'.bare = l.bare
  size : l'.messages.size = l.messages.size
  others : ∀ j, j ≠ k → l'.messages[j]? = l.messages[j]?
  log : ∃ n, l'.log = List.replicate n .cancelled ++ l.log

namespace ApartFrom

variable {k : Nat} {l l' l'' : Link ρ η}

theorem refl (k : Nat) (l : Link ρ η) : l.ApartFrom k l := ⟨rfl, rfl, fun _ _ => rfl, 0, rfl⟩

theorem trans (h : l.ApartFrom k l') (h' : l'.ApartFrom k l'') : l.ApartFrom k l'' where
  bare := h'.bare.trans h.bare
  size := h'.size.trans h.size
  others j apart := (h'.others j apart).trans (h.others j apart)
  log := by
    obtain ⟨n, first⟩ := h.log
    obtain ⟨n', next⟩ := h'.log
    refine ⟨n' + n, ?_⟩
    rw [next, first, ← List.append_assoc, List.replicate_append_replicate]

theorem stations (h : l.ApartFrom k l') : l'.stations = l.stations := by
  have same := congrArg Link.stations h.bare
  exact same

end ApartFrom

/-- Two links that agree on everything but the messages and the log differ there or not at all. -/
theorem eq_of_bare {l l' : Link ρ η} (same : l'.bare = l.bare)
    (messages : l'.messages = l.messages) (log : l'.log = l.log) : l' = l := by
  obtain ⟨stations, contexts, shared, _, tokens, signals, tasks, _⟩ := l
  obtain ⟨stations', contexts', shared', _, tokens', signals', tasks', _⟩ := l'
  simp only [bare, mk.injEq, true_and, and_true] at same
  obtain ⟨rfl, rfl, rfl, rfl, rfl, rfl⟩ := same
  cases messages
  cases log
  rfl

section OnMessage

variable {pick who k : Nat} {c : MessageCall}

/-- How many cancellations a step on a message reports. -/
def cancellations : MessageCall → Nat
  | .hangUp _ => 1
  | _ => 0

theorem step_stream_of_some (pick who : Nat) (c : MessageCall) {l : Link ρ η} {msg : Message}
    (found : l.messages[k]? = some msg) :
    (l.step pick who (.stream k c)).1 =
      { l with
        messages := l.messages.setIfInBounds k (msg.step who c).1
        log := List.replicate (cancellations c) .cancelled ++ l.log } := by
  simp only [step, found]
  split
  · rfl
  · next other =>
    have none : cancellations c = 0 := by
      cases c with
      | hangUp r => exact absurd rfl (other r)
      | _ => rfl
    rw [none]
    rfl

theorem step_stream_of_none (pick who : Nat) (c : MessageCall) {l : Link ρ η}
    (absent : l.messages[k]? = none) :
    l.step pick who (.stream k c) = (l, .done (.error .pipeClosed)) := by
  simp only [step, absent]

/-- A step on a message leaves everything else alone. -/
theorem apart_step (l : Link ρ η) : l.ApartFrom k (l.step pick who (.stream k c)).1 := by
  cases found : l.messages[k]? with
  | none =>
    rw [step_stream_of_none pick who c found]
    exact .refl k l
  | some msg =>
    rw [step_stream_of_some pick who c found]
    exact ⟨rfl, Array.size_setIfInBounds, fun j apart =>
      Array.getElem?_setIfInBounds_ne apart.symm, _, rfl⟩

/-- And so does a wakeup without a notification. -/
theorem apart_rouse (c : MessageCall) (l : Link ρ η) :
    l.ApartFrom k (l.rouse who (.stream k c)) where
  bare := rfl
  size := Array.size_modify
  others j apart := by simp [rouse, Array.getElem?_modify, apart.symm]
  log := ⟨0, rfl⟩

/-- The logs of two links grew by the same cancellations. -/
def GrowAlike (l₁ l₁' l₂ l₂' : Link ρ η) : Prop :=
  ∃ n, l₁'.log = List.replicate n .cancelled ++ l₁.log ∧
    l₂'.log = List.replicate n .cancelled ++ l₂.log

variable {l l' : Link ρ η} (same : l'.messages[k]? = l.messages[k]?)

include same

/-- What comes of a step on a message depends on that message alone. -/
theorem step_local :
    (l'.step pick who (.stream k c)).2 = (l.step pick who (.stream k c)).2 ∧
      (l'.step pick who (.stream k c)).1.messages[k]? =
        (l.step pick who (.stream k c)).1.messages[k]? ∧
      GrowAlike l (l.step pick who (.stream k c)).1 l' (l'.step pick who (.stream k c)).1 := by
  cases found : l.messages[k]? with
  | none =>
    rw [step_stream_of_none pick who c found, step_stream_of_none pick who c (same.trans found)]
    exact ⟨rfl, same, 0, rfl, rfl⟩
  | some msg =>
    have found' := same.trans found
    refine ⟨?_, ?_, cancellations c, ?_, ?_⟩
    · rw [step_stream pick who k c l found, step_stream pick who k c l' found']
    · rw [messages_step_stream found, messages_step_stream found']
    · rw [step_stream_of_some pick who c found]
    · rw [step_stream_of_some pick who c found']

theorem isAsleep_local : l'.isAsleep who (.stream k c) = l.isAsleep who (.stream k c) := by
  simp only [isAsleep, same]

theorem rouse_local :
    (l'.rouse who (.stream k c)).messages[k]? = (l.rouse who (.stream k c)).messages[k]? := by
  simp [rouse, Array.getElem?_modify, same]

end OnMessage

end Link

/-! ## Many moves on a message -/

namespace Machine

variable {m m' : Machine ρ η} {users users' : Nat → Prop} {j k : Nat}

/-- Whatever call one of `users` is in, it is made on message `k`. -/
def UsesOnly (users : Nat → Prop) (k : Nat) (m : Machine ρ η) : Prop :=
  ∀ x ∈ m.calls, users x.1 → x.2.isOn k = true

/-- Nothing but message `k` and the calls of `users` changed. -/
structure ApartFrom (users : Nat → Prop) (k : Nat) (m m' : Machine ρ η) : Prop where
  link : m.link.ApartFrom k m'.link
  calls : ∀ x, ¬ users x.1 → (x ∈ m'.calls ↔ x ∈ m.calls)

/-- Two machines agree on what `users` of message `k` see: the message, their own calls and those
that others make on it. -/
structure Alike (users : Nat → Prop) (k : Nat) (m m' : Machine ρ η) : Prop where
  message : m'.link.messages[k]? = m.link.messages[k]?
  calls : ∀ x, users x.1 ∨ x.2.isOn k = true → (x ∈ m'.calls ↔ x ∈ m.calls)

/-- A move on message `k` leaves everything else alone. -/
theorem Moves.apart {mv : Move ρ η} {es : List (Event ρ η)} (orderly : m.Orderly)
    (only : m.UsesOnly users k) (own : mv.isBy users k) (one : Moves m mv m' es) :
    m.ApartFrom users k m' ∧ m'.UsesOnly users k := by
  cases one with
  | stays => exact ⟨⟨.refl k _, fun _ _ => Iff.rfl⟩, only⟩
  | takes => exact own.elim
  | @begins who c idle entry free =>
    obtain ⟨user, on⟩ := own
    refine ⟨⟨.refl k _, ?_⟩, ?_⟩
    · intro x other
      have apart : x ≠ (who, c) := fun same => other (same ▸ user)
      simp [apart]
    · intro x here mine
      rcases List.mem_append.1 here with old | new
      · exact only x old mine
      · exact List.mem_singleton.1 new ▸ on
  | @steps who pick c rest calls now awake next =>
    have here : (who, c) ∈ m.calls := now.mem_iff.2 List.mem_cons_self
    obtain ⟨c₀, rfl⟩ := Call.exists_of_isOn (only _ here own)
    refine ⟨⟨Link.apart_step _, ?_⟩, ?_⟩
    · rintro ⟨x, c'⟩ other
      have apart : x ≠ who := fun same => other (same ▸ own)
      simp [mem_calls_step orderly now next, apart]
    · rintro ⟨x, c'⟩ there mine
      rcases (mem_calls_step orderly now next).1 there with ⟨rfl, onward⟩ | ⟨-, old⟩
      · cases Link.follows_step onward with
        | streams => exact Call.isOn_stream k _
        | submits can => cases can
      · exact only _ old mine
  | @rouses who c now =>
    obtain ⟨c₀, rfl⟩ := Call.exists_of_isOn (only _ now own)
    exact ⟨⟨Link.apart_rouse c₀ _, fun _ _ => Iff.rfl⟩, only⟩

/-- Whatever is done to message `k`, everything else stays as it was. -/
theorem run_apart (orderly : m.Orderly) (only : m.UsesOnly users k) {xs : List (Move ρ η)}
    (own : ∀ mv ∈ xs, mv.isBy users k) :
    m.ApartFrom users k (m.run xs) ∧ (m.run xs).UsesOnly users k := by
  induction xs generalizing m with
  | nil => exact ⟨⟨.refl k _, fun _ _ => Iff.rfl⟩, only⟩
  | cons mv xs ih =>
    have one := moves orderly mv
    obtain ⟨first, only'⟩ := one.apart orderly only (own mv List.mem_cons_self)
    obtain ⟨next, only''⟩ := ih (orderly.of_moves one) only' fun mv' later =>
      own mv' (List.mem_cons_of_mem _ later)
    refine ⟨⟨first.link.trans next.link, fun x other => ?_⟩, only''⟩
    exact (next.calls x other).trans (first.calls x other)

/-- Users of another message see no change. -/
theorem ApartFrom.alike (h : m.ApartFrom users k m') (apart : j ≠ k)
    (disjoint : ∀ who, users who → ¬ users' who) (only : m.UsesOnly users k)
    (only' : m'.UsesOnly users k) : m.Alike users' j m' where
  message := h.link.others j apart
  calls x sees := by
    by_cases user : users x.1
    · -- A user of `k` is in no call that users of `j` see.
      have unseen : x.2.isOn k = true → False := by
        intro on
        rcases sees with mine | there
        · exact disjoint x.1 user mine
        · rw [Call.isOn_ne apart on] at there
          cases there
      exact ⟨fun here => (unseen (only' x here user)).elim,
        fun here => (unseen (only x here user)).elim⟩
    · exact h.calls x user

section Local

variable (orderly : m.Orderly) (orderly' : m'.Orderly) (only : m.UsesOnly users k)
  (alike : m.Alike users k m')

include orderly orderly' alike

theorem Alike.call?_eq {who : Nat} (user : users who) : m'.call? who = m.call? who := by
  apply Option.ext
  intro c
  rw [call?_eq_some_iff orderly, call?_eq_some_iff orderly']
  exact alike.calls (who, c) (.inl user)

theorem Alike.canBegin_eq {who : Nat} (user : users who) (c : MessageCall) :
    m'.canBegin who (.stream k c) = m.canBegin who (.stream k c) := by
  have free : m'.isFree (.stream k c) = m.isFree (.stream k c) := by
    unfold isFree
    split
    · rfl
    · next e made =>
      obtain ⟨end', -, rfl⟩ := Option.map_eq_some_iff.1 made
      rw [Bool.eq_iff_iff]
      simp only [List.all_eq_true, bne_iff_ne]
      have on : ∀ x : Nat × Call ρ η, x.2.madeOn? = some (k, end') → x.2.isOn k = true := by
        rintro ⟨x, c⟩ made
        cases c with
        | stream i c₀ =>
          obtain ⟨_, -, same⟩ := Option.map_eq_some_iff.1 made
          exact beq_iff_eq.2 (Prod.mk.inj same).1
        | _ => cases made
      exact ⟨fun all x here made => all x ((alike.calls x (.inr (on x made))).2 here) made,
        fun all x here made => all x ((alike.calls x (.inr (on x made))).1 here) made⟩
  simp only [canBegin, isIdle, alike.call?_eq orderly orderly' user, free]

include only

/-- What comes of a move on a message depends on what its users see. -/
theorem Alike.move {mv : Move ρ η} (own : mv.isBy users k) :
    m'.taken? mv = m.taken? mv ∧ (m.move mv).Alike users k (m'.move mv) ∧
      Link.GrowAlike m.link (m.move mv).link m'.link (m'.move mv).link := by
  cases mv with
  | takeTask i => exact own.elim
  | begin who c =>
    obtain ⟨user, on⟩ := own
    obtain ⟨c₀, rfl⟩ := Call.exists_of_isOn on
    have can := alike.canBegin_eq orderly orderly' user c₀
    simp only [Machine.move, begin, can]
    split
    · refine ⟨rfl, ⟨alike.message, ?_⟩, 0, rfl, rfl⟩
      intro x sees
      simp [alike.calls x sees]
    · exact ⟨rfl, alike, 0, rfl, rfl⟩
  | rouse who =>
    have call := alike.call?_eq orderly orderly' own
    simp only [Machine.move, rouse, call]
    cases now : m.call? who with
    | none => exact ⟨rfl, alike, 0, rfl, rfl⟩
    | some c =>
      have here := (call?_eq_some_iff orderly).1 now
      obtain ⟨c₀, rfl⟩ := Call.exists_of_isOn (only _ here own)
      exact ⟨rfl, ⟨Link.rouse_local (c := c₀) alike.message, alike.calls⟩, 0, rfl, rfl⟩
  | step who pick =>
    have call := alike.call?_eq orderly orderly' own
    cases now : m.call? who with
    | none =>
      rw [now] at call
      simp only [Machine.move, step, taken?, now, call]
      exact ⟨trivial, alike, 0, rfl, rfl⟩
    | some c =>
      rw [now] at call
      have here := (call?_eq_some_iff orderly).1 now
      obtain ⟨c₀, rfl⟩ := Call.exists_of_isOn (only _ here own)
      have asleep : m'.link.isAsleep who (.stream k c₀) = m.link.isAsleep who (.stream k c₀) :=
        Link.isAsleep_local alike.message
      cases awake : m.link.isAsleep who (.stream k c₀) with
      | true =>
        simp only [Machine.move, step, taken?, now, call, asleep, awake, if_true]
        exact ⟨trivial, alike, 0, rfl, rfl⟩
      | false =>
        have awake' := asleep.trans awake
        have local' : (m'.link.step pick who (.stream k c₀)).2 = _ ∧ _ :=
          Link.step_local alike.message
        obtain ⟨outcome, message, log⟩ := local'
        obtain ⟨rest, perm, link, calls⟩ := step_of_awake orderly now awake pick
        obtain ⟨rest', perm', link', calls'⟩ := step_of_awake orderly' call awake' pick
        refine ⟨?_, ⟨?_, ?_⟩, ?_⟩
        · rw [taken?_of_awake now awake, taken?_of_awake call awake', outcome]
        · simpa only [Machine.move, link, link'] using message
        · rintro ⟨x, c'⟩ sees
          show (x, c') ∈ (m'.step who pick).1.calls ↔ (x, c') ∈ (m.step who pick).1.calls
          rw [mem_calls_step orderly perm calls, mem_calls_step orderly' perm' calls', outcome,
            alike.calls (x, c') sees]
        · simpa only [Machine.move, link, link'] using log

/-- Whatever is done to a message, what comes of it depends on what its users see. -/
theorem Alike.run {xs : List (Move ρ η)} (own : ∀ mv ∈ xs, mv.isBy users k) :
    m'.journal xs = m.journal xs ∧ (m.run xs).Alike users k (m'.run xs) ∧
      Link.GrowAlike m.link (m.run xs).link m'.link (m'.run xs).link := by
  induction xs generalizing m m' with
  | nil => exact ⟨rfl, alike, 0, rfl, rfl⟩
  | cons mv xs ih =>
    have mine := own mv List.mem_cons_self
    have one := moves orderly mv
    obtain ⟨taken, alike', n, log, log'⟩ := alike.move orderly orderly' only mine
    obtain ⟨journal, alike'', n', next, next'⟩ := ih (orderly.of_moves one)
      (orderly'.of_moves (moves orderly' mv)) (one.apart orderly only mine).2 alike'
      fun mv' later => own mv' (List.mem_cons_of_mem _ later)
    refine ⟨?_, alike'', n' + n, ?_, ?_⟩
    · rw [Machine.journal, Machine.journal, taken, journal]
    · rw [← List.replicate_append_replicate, List.append_assoc, ← log]
      exact next
    · rw [← List.replicate_append_replicate, List.append_assoc, ← log']
      exact next'

end Local

/-- Others stay in the calls that they are in. -/
theorem ApartFrom.usesOnly (h : m.ApartFrom users k m') (disjoint : ∀ who, users who → ¬ users' who)
    (only : m.UsesOnly users' j) : m'.UsesOnly users' j := by
  intro x here user'
  have other : ¬ users x.1 := fun user => disjoint x.1 user user'
  exact only x ((h.calls x other).1 here) user'

/-- What is done to different messages can be done in either order: the callers are answered the
same either way, and everything ends up the same. -/
theorem run_commute (orderly : m.Orderly) (apart : j ≠ k)
    (disjoint : ∀ who, users who → ¬ users' who) (only : m.UsesOnly users j)
    (only' : m.UsesOnly users' k) {xs ys : List (Move ρ η)} (own : ∀ mv ∈ xs, mv.isBy users j)
    (own' : ∀ mv ∈ ys, mv.isBy users' k) :
    (m.run ys).journal xs = m.journal xs ∧ (m.run xs).journal ys = m.journal ys ∧
      (m.run (xs ++ ys)).link = (m.run (ys ++ xs)).link ∧
      ∀ x, x ∈ (m.run (xs ++ ys)).calls ↔ x ∈ (m.run (ys ++ xs)).calls := by
  have disjoint' : ∀ who, users' who → ¬ users who := fun who there here =>
    disjoint who here there
  rw [run_append, run_append]
  -- Neither sees what the other does, so each does the same before and after the other.
  obtain ⟨byX, onlyX⟩ := run_apart orderly only own
  obtain ⟨byY, onlyY⟩ := run_apart orderly only' own'
  have unseenX : m.Alike users' k (m.run xs) := byX.alike apart.symm disjoint only onlyX
  have unseenY : m.Alike users j (m.run ys) := byY.alike apart disjoint' only' onlyY
  obtain ⟨journalY, laterY, b, logY, logXY⟩ :=
    unseenX.run orderly (orderly_run orderly xs) only' own'
  obtain ⟨journalX, laterX, a, logX, logYX⟩ :=
    unseenY.run orderly (orderly_run orderly ys) only own
  obtain ⟨byXY, -⟩ := run_apart (orderly_run orderly xs) (byX.usesOnly disjoint only') own'
  obtain ⟨byYX, -⟩ := run_apart (orderly_run orderly ys) (byY.usesOnly disjoint' only) own
  refine ⟨journalX, journalY, Link.eq_of_bare ?_ ?_ ?_, ?_⟩
  · rw [byXY.link.bare, byX.link.bare, byYX.link.bare, byY.link.bare]
  · apply Array.ext_getElem?
    intro i
    by_cases first : i = j
    · subst first
      exact (byXY.link.others i apart).trans laterX.message.symm
    · by_cases second : i = k
      · subst second
        exact laterY.message.trans (byYX.link.others i first).symm
      · rw [byXY.link.others i second, byX.link.others i first, byYX.link.others i first,
          byY.link.others i second]
  · rw [logXY, logX, logYX, logY, ← List.append_assoc, ← List.append_assoc,
      List.replicate_append_replicate, List.replicate_append_replicate, Nat.add_comm]
  · intro x
    by_cases here : users x.1
    · exact (byXY.calls x (disjoint x.1 here)).trans (laterX.calls x (.inl here)).symm
    · by_cases there : users' x.1
      · exact (laterY.calls x (.inl there)).trans (byYX.calls x here).symm
      · rw [byXY.calls x there, byX.calls x here, byYX.calls x here, byY.calls x there]

end Machine

/-! ## Places in the mailbox -/

theorem getElem?_pairUp (rs : List ρ) (ms : List Nat) (i : Nat) :
    (pairUp rs ms)[i]? = rs[i]?.bind fun r => ms[i]?.map fun k => ⟨r, .message k⟩ := by
  rw [pairUp, List.getElem?_zipWith]
  cases rs[i]? <;> cases ms[i]? <;> rfl

/-- A message at place `i` of the queue goes to the receiver that is registered as number `i` from
now on, and until then it moves up by one with each receiver. -/
theorem Paired.turn {g g' : Ledger ρ} {ended ended' : List ρ} {e e' : Endpoint ρ Nat}
    (before : Paired g ended e) (after : Paired (g.append g') ended' e') {i k : Nat}
    (queued : e.mailbox.queue[i]? = some k) :
    g'.dispatched[i]? = g'.registered[i]?.map (⟨·, .message k⟩) ∧
      (g'.registered.length ≤ i → e'.mailbox.queue[i - g'.registered.length]? = some k) := by
  have place : g.delivered[g.registered.length + i]? = some k := by
    rw [← List.getElem?_drop, ← before.queued]
    exact queued
  have place' : (g.delivered ++ g'.delivered)[g.registered.length + i]? = some k := by
    obtain ⟨inside, -⟩ := List.getElem?_eq_some_iff.1 place
    rw [List.getElem?_append_left inside]
    exact place
  -- Nobody waits for a message while some are queued, so each receiver so far was dispatched.
  have dispatched : g.dispatched.length = g.registered.length := by
    have nobody : e.pending = none := by
      cases waits : e.pending with
      | none => rfl
      | some r =>
        rw [before.empty_of_pending waits] at queued
        cases queued
    have all := congrArg List.length before.registered_eq
    rw [nobody] at all
    simpa using all.symm
  have waiting : g'.registered.length ≤ i →
      e'.mailbox.queue[i - g'.registered.length]? = some k := by
    intro early
    rw [after.queued, List.getElem?_drop, Ledger.append, List.length_append, Nat.add_assoc,
      Nat.add_sub_cancel' early]
    exact place'
  refine ⟨?_, waiting⟩
  have split : g'.dispatched[i]? = (g.append g').dispatched[g.registered.length + i]? := by
    rw [Ledger.append, ← dispatched, List.getElem?_append_right (Nat.le_add_right _ _),
      Nat.add_sub_cancel_left]
  have later : (g.append g').registered[g.registered.length + i]? = g'.registered[i]? := by
    rw [Ledger.append, List.getElem?_append_right (Nat.le_add_right _ _), Nat.add_sub_cancel_left]
  rw [split, after.dispatched]
  cases now : g'.registered[i]? with
  | some r =>
    have paired : (pairUp (g.append g').registered (g.append g').delivered)[
        g.registered.length + i]? = some ⟨r, .message k⟩ := by
      rw [getElem?_pairUp, later, now]
      show (g.delivered ++ g'.delivered)[_]?.map _ = _
      rw [place']
      rfl
    obtain ⟨inside, -⟩ := List.getElem?_eq_some_iff.1 paired
    rw [List.getElem?_append_left inside, paired]
    rfl
  | none =>
    have early := List.getElem?_eq_none_iff.1 now
    -- The message is still queued, so nobody was told the end.
    have none : ended' = [] := by
      by_contra some
      have still := waiting early
      rw [(after.finished some).2] at still
      cases still
    rw [none, List.map_nil, List.append_nil, getElem?_pairUp, later, now]
    rfl

/-! ## Every reachable machine -/

namespace Machine

/-- Messages are isolated from each other and from the endpoints. -/
structure Isolates (m : Machine ρ η) : Prop where
  /-- Callers that use one message change nothing but that message, and the log by cancellations. -/
  apart : ∀ (users : Nat → Prop) k (xs : List (Move ρ η)), m.UsesOnly users k →
    (∀ mv ∈ xs, mv.isBy users k) →
    (∀ j, j ≠ k → (m.run xs).link.messages[j]? = m.link.messages[j]?) ∧
      (∀ s, (m.run xs).link.endpoint s = m.link.endpoint s) ∧ m.ApartFrom users k (m.run xs)
  /-- Whatever happens, a message that is queued goes to the receiver whose turn it is. -/
  turn : ∀ (s : Side) (i k : Nat), (m.link.endpoint s).mailbox.queue[i]? = some k →
    ∀ later : List (Move ρ η),
      let g := Ledger.ofHistory s (m.history later)
      g.dispatched[i]? = g.registered[i]?.map (⟨·, .message k⟩) ∧
        (g.registered.length ≤ i →
          ((m.run later).link.endpoint s).mailbox.queue[i - g.registered.length]? = some k)
  /-- What different callers do to different messages can be done in either order. -/
  commute : ∀ (users users' : Nat → Prop) j k, j ≠ k → (∀ who, users who → ¬ users' who) →
    m.UsesOnly users j → m.UsesOnly users' k → ∀ xs ys : List (Move ρ η),
      (∀ mv ∈ xs, mv.isBy users j) → (∀ mv ∈ ys, mv.isBy users' k) →
      (m.run ys).journal xs = m.journal xs ∧ (m.run xs).journal ys = m.journal ys ∧
        (m.run (xs ++ ys)).link = (m.run (ys ++ xs)).link ∧
        ∀ x, x ∈ (m.run (xs ++ ys)).calls ↔ x ∈ (m.run (ys ++ xs)).calls

/-- Messages are isolated from each other and from the endpoints, after every schedule. -/
theorem messages_isolated (config : Config) (first : String) (second : Option String)
    (tokens signals : Nat) (schedule : List (Move ρ η)) :
    Isolates ((fresh config first second tokens signals).run schedule) := by
  have fresh_orderly := orderly_fresh (ρ := ρ) (η := η) config first second tokens signals
  have orderly := orderly_run fresh_orderly schedule
  refine ⟨fun users k xs only own => ?_, fun s i k queued later => ?_,
    fun users users' j k apart disjoint only only' xs ys own own' =>
      run_commute orderly apart disjoint only only' own own'⟩
  · obtain ⟨apart, -⟩ := run_apart orderly only own
    refine ⟨apart.link.others, fun s => ?_, apart⟩
    rw [Link.endpoint, apart.link.stations, Link.endpoint]
  · obtain ⟨ended, before⟩ := paired_run config first second tokens signals schedule s
    obtain ⟨ended', after⟩ := paired_run config first second tokens signals (schedule ++ later) s
    rw [history_append, run_append, Ledger.ofHistory_append] at after
    exact before.turn after queued

/-- Caller 0 writes two messages, which are queued. -/
def queueing : List (Move Nat Nat) :=
  [.begin 0 (.write .a none false), .step 0 0, .begin 0 (.write .a none false), .step 0 0]

/-- Caller 0 cancels the first message. -/
def cancelling : List (Move Nat Nat) := [.begin 0 (.stream 0 .cancel), .step 0 0, .step 0 0]

/-- Caller 1 writes a byte of the second message and closes it. -/
def ending : List (Move Nat Nat) :=
  [.begin 1 (.stream 1 (.start (.write [7]))), .step 1 0,
    .begin 1 (.stream 1 (.start .closeWriter)), .step 1 0]

/-- After `queueing` the first message can be cancelled before the second one is ended or after
that. Either way both keep their places, and two receivers get them in this order. -/
theorem isolated_after_queueing :
    ∃ m : Machine Nat Nat, m = (fresh ⟨2, 4⟩ "pair" none 0 0).run queueing ∧
      (m.run (cancelling ++ ending)).link = (m.run (ending ++ cancelling)).link ∧
      (m.run cancelling).link.messages[1]? = m.link.messages[1]? ∧
      ((m.run cancelling).link.endpoint .b).mailbox.queue = [0, 1] ∧
      (Ledger.ofHistory .b (m.history (cancelling ++ ending ++
        [.begin 2 (.receive .b 40), .step 2 0, .begin 3 (.receive .b 41), .step 3 0]))).dispatched[1]?
        = some ⟨41, .message 1⟩ := by
  have isolates := messages_isolated (ρ := Nat) (η := Nat) ⟨2, 4⟩ "pair" none 0 0 queueing
  have idle : ∀ users k, ((fresh ⟨2, 4⟩ "pair" none 0 0 : Machine Nat Nat).run queueing).UsesOnly
      users k := fun _ _ _ here => absurd here List.not_mem_nil
  have cancels : ∀ mv ∈ cancelling, mv.isBy (· = 0) 0 := by simp [cancelling, Move.isBy]
  have ends : ∀ mv ∈ ending, mv.isBy (· = 1) 1 := by simp [ending, Move.isBy]
  have different : ∀ who, who = 0 → ¬ who = 1 := by
    rintro who rfl
    decide
  obtain ⟨others, endpoints, -⟩ := isolates.apart (· = 0) 0 cancelling (idle _ _) cancels
  refine ⟨_, rfl, ?_, others 1 (by decide), ?_, ?_⟩
  · exact (isolates.commute (· = 0) (· = 1) 0 1 (by decide) different (idle _ _) (idle _ _)
      cancelling ending cancels ends).2.2.1
  · rw [endpoints]
    decide +kernel
  · rw [(isolates.turn .b 1 1 (by decide +kernel) _).1]
    decide +kernel

end Machine

end Loopback
