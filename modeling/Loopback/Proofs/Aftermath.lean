import Loopback.Proofs.Directions
import Loopback.Proofs.PlainWrites
import Loopback.Proofs.Rest

/-!
# What writers come to after something was done

Writers sleep at an endpoint because it is open and full. Then one thing is done to it: a message is
received, no further message is taken, or a token is set. Whoever wakes looks at the endpoint again,
and what it finds there depends only on what was done and on who was there before it.
`Endpoint.Since` lists what an endpoint can look like, together with the writers that left so far
and their answers; a writer that runs again goes back to sleep or leaves with the answer that this
allows (`Endpoint.Since.resume`). `Machine.Aftermath` puts both endpoints together with the tokens,
and with a count of those who left against those who still wait. Whoever takes a step next, except
for the caller that does something more, keeps it (`Machine.Aftermath.other_step`).
-/

namespace Loopback

variable {ρ η : Type}

/-- The answer of an attempt that ends a write, with `n` the number of its message. -/
def Entry.answer? (n : Nat) : Entry ρ → Option Result
  | .refused why => some (.error why)
  | .queued => some (.ok (.message n))
  | .sleeps | .handed _ => none

theorem Entry.ifAsleep_of_answer? {α : Type} {n : Nat} {entry : Entry ρ} {r : Result}
    (h : entry.answer? n = some r) (x : α) : entry.ifAsleep x = [] := by
  cases entry with
  | sleeps => cases h
  | _ => rfl

theorem Link.finishWrite_of_answer? {l : Link ρ η} {source : Side}
    {token : Option Nat} {e : Endpoint ρ Nat} {entry : Entry ρ} {r : Result} {n : Nat}
    (size : l.messages.size = n) (h : entry.answer? n = some r) :
    (l.finishWrite source token e entry).2 = .done r := by
  subst size
  cases entry <;> cases h <;> rfl

/-- What was done to an endpoint: nothing that changes whether it takes a message, a message was
received, or it was closed. -/
inductive Deed where
  | nothing
  | served
  | shut
  deriving DecidableEq

namespace Endpoint

variable {e₀ e e' : Endpoint ρ Nat} {hit : Writer → Bool} {deed : Deed}
  {left : List (Writer × Result)}

/-- The endpoint `e₀` became `e` since, while the writers of `left` left it with their answers. The
writers that are `hit` are those whose token may be set. As long as nothing was done to the
endpoint only these can leave. After a message was received one writer can leave its own message in
the place of that one. Once the endpoint is closed everybody can leave. -/
inductive Since (hit : Writer → Bool) (e₀ : Endpoint ρ Nat) :
    Deed → List (Writer × Result) → Endpoint ρ Nat → Prop where
  | waits {left : List (Writer × Result)} {e : Endpoint ρ Nat} (mailbox : e.mailbox = e₀.mailbox)
      (closed : e.closed = e₀.closed) (pending : e.pending = e₀.pending)
      (aborted : ∀ x ∈ left, hit x.1 = true ∧ x.2 = .error .interrupted) :
      Since hit e₀ .nothing left e
  | freed {e : Endpoint ρ Nat} {oldest : Nat} {rest : List Nat} (unhit : ∀ w, hit w = false)
      (front : e₀.mailbox.queue = oldest :: rest)
      (mailbox : e.mailbox = { e₀.mailbox with queue := rest }) (opened : e.closed = false)
      (pending : e.pending = none) : Since hit e₀ .served [] e
  | refilled {e : Endpoint ρ Nat} {oldest n : Nat} {rest : List Nat} {w : Writer}
      (unhit : ∀ w, hit w = false) (front : e₀.mailbox.queue = oldest :: rest)
      (mailbox : e.mailbox = { e₀.mailbox with queue := rest ++ [n] }) (opened : e.closed = false)
      (pending : e.pending = none) : Since hit e₀ .served [(w, .ok (.message n))] e
  | shut {left : List (Writer × Result)} {e : Endpoint ρ Nat} (unhit : ∀ w, hit w = false)
      (mailbox : e.mailbox = e₀.mailbox) (closed : e.closed = true)
      (refused : ∀ x ∈ left, x.2 = .error .notOpen) : Since hit e₀ .shut left e

theorem since_self (hit : Writer → Bool) (e : Endpoint ρ Nat) : Since hit e .nothing [] e :=
  .waits rfl rfl rfl fun _ here => absurd here List.not_mem_nil

/-- Waking writers does not count. -/
theorem Since.of_same (h : Since hit e₀ deed left e) (mailbox : e'.mailbox = e.mailbox)
    (closed : e'.closed = e.closed) (pending : e'.pending = e.pending) :
    Since hit e₀ deed left e' := by
  cases h with
  | waits m c p aborted => exact .waits (mailbox.trans m) (closed.trans c) (pending.trans p) aborted
  | freed unhit front m o p =>
    exact .freed unhit front (mailbox.trans m) (closed.trans o) (pending.trans p)
  | refilled unhit front m o p =>
    exact .refilled unhit front (mailbox.trans m) (closed.trans o) (pending.trans p)
  | shut unhit m c refused => exact .shut unhit (mailbox.trans m) (closed.trans c) refused

/-! ## A writer that starts over -/

section Enter

variable {pick n : Nat} {w : Writer} {interrupted : Bool}

theorem enter_of_closed (closed : e.closed = true) :
    e.enter pick w interrupted n = (e, .refused .notOpen) := by
  simp [enter, closed]

theorem enter_of_full (opened : e.closed = false) (full : e.mailbox.isFull = true) :
    e.enter pick w false n = ({ e with writers := e.writers.sleep w }, .sleeps) := by
  simp [enter, opened, full]

theorem enter_of_room (opened : e.closed = false) (room : e.mailbox.isFull = false)
    (nobody : e.pending = none) :
    e.enter pick w interrupted n =
      (({ e with mailbox := e.mailbox.push n } : Endpoint ρ Nat).notifyOne pick, .queued) := by
  simp [enter, accept, opened, room, nobody]

end Enter

/-- A writer that starts over without a set token leaves when the endpoint was closed, or when it is
the first to find the slot of the received message, and goes to sleep otherwise. -/
theorem Since.enter (h : Since hit e₀ deed left e) (blocks : e₀.HoldsUp) (w : Writer)
    (pick n : Nat) :
    ((e.enter pick w false n).2 = .sleeps ∧ Since hit e₀ deed left (e.enter pick w false n).1) ∨
    ∃ r, (e.enter pick w false n).2.answer? n = some r ∧
      Since hit e₀ deed (left ++ [(w, r)]) (e.enter pick w false n).1 := by
  have length := blocks.full
  cases h with
  | waits mailbox closed pending aborted =>
    have full : e.mailbox.isFull = true := by
      rw [mailbox]
      exact decide_eq_true (Nat.le_of_eq length.symm)
    rw [enter_of_full (closed.trans blocks.opened) full]
    exact .inl ⟨rfl, .waits mailbox closed pending aborted⟩
  | @freed _ oldest rest unhit front mailbox opened pending =>
    have room : e.mailbox.isFull = false := by
      rw [Mailbox.size, front, List.length_cons] at length
      rw [mailbox]
      refine decide_eq_false ?_
      show ¬e₀.mailbox.capacity ≤ rest.length
      omega
    rw [enter_of_room opened room pending]
    refine .inr ⟨_, rfl, .refilled unhit front ?_ opened pending⟩
    show e.mailbox.push n = _
    rw [mailbox]
    rfl
  | @refilled _ oldest m rest v unhit front mailbox opened pending =>
    have full : e.mailbox.isFull = true := by
      rw [Mailbox.size, front, List.length_cons] at length
      rw [mailbox]
      refine decide_eq_true ?_
      show e₀.mailbox.capacity ≤ (rest ++ [m]).length
      rw [List.length_append, List.length_singleton]
      omega
    rw [enter_of_full opened full]
    exact .inl ⟨rfl, .refilled unhit front mailbox opened pending⟩
  | shut unhit mailbox closed refused =>
    rw [enter_of_closed closed]
    refine .inr ⟨_, rfl, .shut unhit mailbox closed ?_⟩
    intro x here
    rcases List.mem_append.1 here with before | new
    · exact refused x before
    · rw [List.mem_singleton.1 new]

/-- A woken writer leaves when its token is set, and starts over when it is not. Either way the
endpoint is as it can be after what was done to it. -/
theorem Since.resume (h : Since hit e₀ deed left e) (blocks : e₀.HoldsUp) {w : Writer}
    {interrupted : Bool} (known : interrupted = true → hit w = true) (pick n : Nat) :
    ((e.resume pick w interrupted n).2 = .sleeps ∧
      Since hit e₀ deed left (e.resume pick w interrupted n).1) ∨
    ∃ r, (e.resume pick w interrupted n).2.answer? n = some r ∧
      Since hit e₀ deed (left ++ [(w, r)]) (e.resume pick w interrupted n).1 := by
  cases interrupted with
  | false =>
    have again : Since hit e₀ deed left { e with writers := e.writers.leave w } :=
      h.of_same rfl rfl rfl
    exact again.enter blocks w pick n
  | true =>
    rw [resume_interrupted]
    have target : hit w = true := known rfl
    cases h with
    | waits mailbox closed pending aborted =>
      refine .inr ⟨_, rfl, .waits mailbox closed pending ?_⟩
      intro x here
      rcases List.mem_append.1 here with before | new
      · exact aborted x before
      · rw [List.mem_singleton.1 new]
        exact ⟨target, rfl⟩
    | freed unhit | refilled unhit | shut unhit =>
      rw [unhit w] at target
      cases target

/-! ## What is done to an endpoint -/

/-- Without a set token nobody leaves while nothing was done. -/
theorem Since.left_eq_nil (h : Since hit e₀ .nothing left e) (unhit : ∀ w, hit w = false) :
    left = [] := by
  cases h with
  | waits _ _ _ aborted =>
    refine List.eq_nil_iff_forall_not_mem.2 fun x here => ?_
    have target := (aborted x here).1
    rw [unhit] at target
    cases target

/-- A receiver is given the oldest message. -/
theorem Since.register (h : Since hit e₀ .nothing left e) (unhit : ∀ w, hit w = false)
    (nobody : e₀.pending = none) (opened : e₀.closed = false) {oldest : Nat} {rest : List Nat}
    (front : e₀.mailbox.queue = oldest :: rest) (pick : Nat) (r : ρ) :
    (e.register pick r).2 = .given ⟨r, .message oldest⟩ ∧
      Since hit e₀ .served left (e.register pick r).1 := by
  obtain rfl := h.left_eq_nil unhit
  cases h with
  | waits mailbox closed pending _ =>
    have answer := registering_register pick r e
    generalize e.register pick r = outcome at answer
    obtain ⟨e', registration⟩ := outcome
    cases answer with
    | refused waits => cases (pending.trans nobody).symm.trans waits
    | message _ front' =>
      rw [mailbox, front] at front'
      obtain ⟨rfl, rfl⟩ := List.cons.inj front'
      refine ⟨rfl, .freed unhit front ?_ (closed.trans opened) (pending.trans nobody)⟩
      show { e.mailbox with queue := rest } = _
      rw [mailbox]
    | finish _ empty | waits _ empty =>
      rw [mailbox, front] at empty
      cases empty

/-- Nobody waits for the end of the stream behind a full mailbox. -/
theorem Since.shutDown (h : Since hit e₀ .nothing left e) (unhit : ∀ w, hit w = false)
    (nobody : e₀.pending = none) (opened : e₀.closed = false) :
    e.shutDown.2 = none ∧ Since hit e₀ .shut left e.shutDown.1 := by
  obtain rfl := h.left_eq_nil unhit
  cases h with
  | waits mailbox closed pending _ =>
    have answer := stopping_shutDown e
    generalize e.shutDown = outcome at answer
    obtain ⟨e', d?⟩ := outcome
    cases answer with
    | again shut => cases (closed.trans opened).symm.trans shut
    | ends _ _ waits => cases (pending.trans nobody).symm.trans waits
    | quietly => exact ⟨rfl, .shut unhit mailbox rfl fun _ here => absurd here List.not_mem_nil⟩

theorem Since.closeOff (h : Since hit e₀ .nothing left e) (unhit : ∀ w, hit w = false) :
    Since hit e₀ .shut left e.closeOff := by
  obtain rfl := h.left_eq_nil unhit
  cases h with
  | waits mailbox => exact .shut unhit mailbox rfl fun _ here => absurd here List.not_mem_nil

end Endpoint

/-! ## Both endpoints, while the writers take their steps -/

/-- The writer that leaves the endpoint of `s` with this step, and its answer. -/
def Taken.left? (s : Side) (x : Taken ρ η) : Option (Writer × Result) :=
  match x.call, x.outcome with
  | .write source token _, .done r => if source.other = s then some (⟨x.caller, token⟩, r) else none
  | _, _ => none

theorem Taken.left?_of_not_isWrite {s : Side} {x : Taken ρ η} (other : x.call.isWrite = false) :
    x.left? s = none := by
  obtain ⟨who, c, outcome⟩ := x
  cases c with
  | write => cases other
  | _ => rfl

namespace Machine

variable {m₀ m m' : Machine ρ η} {who x pick : Nat} {c : Call ρ η} {hit : Writer → Bool}
  {deeds : Side → Deed} {set : Bool} {handed : List (Task ρ η)} {j : List (Taken ρ η)}

/-- The writers that left the endpoint of `s`, with their answers. -/
def departures (s : Side) (j : List (Taken ρ η)) : List (Writer × Result) :=
  j.filterMap (Taken.left? s)

theorem departures_snoc (s : Side) (j : List (Taken ρ η)) (x : Taken ρ η) :
    departures s (j ++ [x]) = departures s j ++ (x.left? s).toList := filterMap_snoc _ j x

/-- The machine `m₀`, which was at rest, became `m` by the steps of `j`. At each endpoint the deed
of `deeds` was done; the tokens of the writers that are hit are set if `set` says so, and no others;
the executor was handed `handed`; and whoever waited at an endpoint waits there still, or left. -/
structure Aftermath (who : Nat) (hit : Writer → Bool) (m₀ : Machine ρ η) (deeds : Side → Deed)
    (set : Bool) (handed : List (Task ρ η)) (j : List (Taken ρ η)) (m : Machine ρ η) : Prop where
  sides : ∀ s, (m₀.link.endpoint s).Since hit (deeds s) (departures s j) (m.link.endpoint s)
  left : ∀ s, ((departures s j).map Prod.fst ++ (m.link.endpoint s).writers.waiting).Perm
    (m₀.link.endpoint s).writers.asleep
  flags : ∀ s, ∀ w ∈ (m₀.link.endpoint s).writers.asleep,
    m.link.isInterrupted w.token = (set && hit w)
  tokens : m.link.tokens.size = m₀.link.tokens.size
  tasks : m.link.tasks = m₀.link.tasks ++ handed
  others : ∀ x c, x ≠ who → m.call? x = some c → c.isWaiting = true

/-- A wakeup without a notification changes nothing that matters. -/
theorem Aftermath.rouse (h : Aftermath who hit m₀ deeds set handed j m) (x : Nat) :
    Aftermath who hit m₀ deeds set handed j (m.rouse x) := by
  rcases m.rouse_cases x with same | ⟨c, -, after⟩
  · rwa [same]
  · rw [after]
    refine ⟨?_, ?_, ?_, ?_, ?_, h.others⟩
    · intro s
      rcases m.link.endpoint_rouse x c s with same | ⟨i, roused⟩
      · rw [same]
        exact h.sides s
      · rw [roused]
        exact (h.sides s).of_same rfl rfl rfl
    · intro s
      refine List.Perm.trans (List.Perm.append_left _ ?_) (h.left s)
      rcases m.link.endpoint_rouse x c s with same | ⟨i, roused⟩
      · rw [same]
      · rw [roused]
        exact Condition.waiting_rouse i _
    · intro s w there
      rw [Link.isInterrupted, m.link.tokens_rouse]
      exact h.flags s w there
    · rw [m.link.tokens_rouse]
      exact h.tokens
    · rw [m.link.tasks_rouse]
      exact h.tasks

section Steps

variable (call : m.call? x = some c) (link : m'.link = (m.link.step pick x c).1)
  (next : m'.call? x = (m.link.step pick x c).2.next?)
  (elsewhere : ∀ y, y ≠ x → m'.call? y = m.call? y)

include call link next elsewhere

/-- A step that is no attempt to write lets nobody leave. -/
theorem Aftermath.plain_step (h : Aftermath who hit m₀ deeds set handed j m)
    (other : c.isWrite = false) {deeds' : Side → Deed} {set' : Bool}
    (sides : ∀ s, (m₀.link.endpoint s).Since hit (deeds' s) (departures s j)
      ((m.link.step pick x c).1.endpoint s))
    (flags : ∀ s, ∀ w ∈ (m₀.link.endpoint s).writers.asleep,
      (m.link.step pick x c).1.isInterrupted w.token = (set' && hit w))
    (waits : x ≠ who → c.isWaiting = true) :
    Aftermath who hit m₀ deeds' set' (handed ++ c.handed?.toList)
      (j ++ [⟨x, c, (m.link.step pick x c).2⟩]) m' := by
  have nobody (s : Side) :
      departures s (j ++ [⟨x, c, (m.link.step pick x c).2⟩]) = departures s j := by
    rw [departures_snoc, Taken.left?_of_not_isWrite other, Option.toList_none, List.append_nil]
  refine ⟨?_, ?_, ?_, ?_, ?_, ?_⟩
  · intro s
    rw [nobody, link]
    exact sides s
  · intro s
    rw [nobody, link]
    exact ((m.link.waiting_step other s).append_left _).trans (h.left s)
  · rw [link]
    exact flags
  · rw [link, Link.size_tokens_step]
    exact h.tokens
  · rw [link, Link.tasks_step, h.tasks, List.append_assoc]
  · intro y c' apart there
    by_cases mine : y = x
    · subst mine
      -- A call that waits goes on as one that waits.
      have before := waits apart
      rw [next] at there
      have follows := Link.follows_step there
      cases follows with
      | submits can =>
        cases c with
        | write => cases other
        | awaitClosed | await | stream => cases can
        | _ => cases before
      | sleeps | awaitsClosed | awaits | streams => rfl
      | _ => cases before
    · exact h.others y c' apart ((elsewhere y mine).symm.trans there)

end Steps

/-- A writer that slept and takes a step goes back to sleep, or it leaves. -/
theorem Aftermath.exists_gone (h : Aftermath who hit m₀ deeds set handed j m)
    (booked : m.Booked)
    (blocks : ∀ s, (m₀.link.endpoint s).writers.asleep ≠ [] → (m₀.link.endpoint s).HoldsUp)
    {source : Side} {token : Option Nat} (here : (x, .write source token true) ∈ m.calls)
    (awake : m.link.isAsleep x (.write source token true) = false) (pick : Nat) :
    ∃ gone : List (Writer × Result),
      (∀ s, ((⟨x, .write source token true,
        (m.link.step pick x (.write source token true)).2⟩ : Taken ρ η).left? s).toList =
          if s = source.other then gone else []) ∧
      (m₀.link.endpoint source.other).Since hit (deeds source.other)
        (departures source.other j ++ gone)
        ((m.link.step pick x (.write source token true)).1.endpoint source.other) ∧
      (gone.map Prod.fst ++ ((m.link.step pick x (.write source token true)).1.endpoint
        source.other).writers.waiting).Perm (m.link.endpoint source.other).writers.waiting ∧
      ∀ c', (m.link.step pick x (.write source token true)).2.next? = some c' →
        c'.isWaiting = true := by
  -- Whoever is awake now slept on the machine at rest, so its token is set only if it is hit.
  have woken := booked.mem_woken here awake
  have there : ⟨x, token⟩ ∈ (m₀.link.endpoint source.other).writers.asleep :=
    (h.left source.other).mem_iff.1
      (List.mem_append_right _ (List.mem_append_right _ woken))
  have known : m.link.isInterrupted token = true → hit ⟨x, token⟩ = true := by
    intro flag
    rw [h.flags source.other ⟨x, token⟩ there, Bool.and_eq_true] at flag
    exact flag.2
  have endpoint : (m.link.step pick x (.write source token true)).1.endpoint source.other =
      ((m.link.endpoint source.other).resume pick ⟨x, token⟩ (m.link.isInterrupted token)
        m.link.messages.size).1 := by
    rw [Link.endpoint_step]
    exact if_pos rfl
  have outcome : (m.link.step pick x (.write source token true)).2 = _ :=
    congrArg Prod.snd (m.link.stepWrite_woken pick x source token)
  have still : (⟨x, token⟩ :: ((m.link.endpoint source.other).resume pick ⟨x, token⟩
      (m.link.isInterrupted token) m.link.messages.size).1.writers.waiting).Perm _ :=
    Endpoint.waiting_resume woken
  rw [endpoint]
  rcases (h.sides source.other).resume (blocks _ (List.ne_nil_of_mem there)) known pick
    m.link.messages.size with ⟨sleeps, since⟩ | ⟨r, answered, since⟩
  · rw [sleeps] at outcome still
    refine ⟨[], ?_, by rwa [List.append_nil], still.cons_inv, ?_⟩
    · intro s
      rw [outcome, ite_self]
      rfl
    · intro c' onward
      rw [outcome] at onward
      cases onward
      rfl
  · rw [Link.finishWrite_of_answer? (by rw [Link.messages_modifyToken?]) answered] at outcome
    rw [Entry.ifAsleep_of_answer? answered] at still
    refine ⟨[(⟨x, token⟩, r)], ?_, since, still, ?_⟩
    · intro s
      rw [outcome]
      by_cases same : s = source.other
      · subst same
        simp [Taken.left?]
      · have apart : ¬source.other = s := fun same' => same same'.symm
        simp [Taken.left?, same, apart]
    · intro c' onward
      rw [outcome] at onward
      cases onward

/-- A writer that takes a step leaves everything as it can be after what was done. -/
theorem Aftermath.writer_step (h : Aftermath who hit m₀ deeds set handed j m) (orderly : m.Orderly)
    (booked : m.Booked)
    (blocks : ∀ s, (m₀.link.endpoint s).writers.asleep ≠ [] → (m₀.link.endpoint s).HoldsUp)
    {source : Side} {token : Option Nat} (call : m.call? x = some (.write source token true))
    (awake : m.link.isAsleep x (.write source token true) = false)
    (link : m'.link = (m.link.step pick x (.write source token true)).1)
    (next : m'.call? x = (m.link.step pick x (.write source token true)).2.next?)
    (elsewhere : ∀ y, y ≠ x → m'.call? y = m.call? y) :
    Aftermath who hit m₀ deeds set handed (j ++ [⟨x, .write source token true,
      (m.link.step pick x (.write source token true)).2⟩]) m' := by
  have here := (call?_eq_some_iff orderly).1 call
  obtain ⟨gone, mine, since, still, onward⟩ := h.exists_gone booked blocks here awake pick
  have apart (s : Side) (other : s ≠ source.other) :
      (m.link.step pick x (.write source token true)).1.endpoint s = m.link.endpoint s := by
    rw [Link.endpoint_step]
    exact if_neg other
  refine ⟨?_, ?_, ?_, ?_, ?_, ?_⟩
  · intro s
    rw [departures_snoc, mine, link]
    by_cases same : s = source.other
    · subst same
      rw [if_pos rfl]
      exact since
    · rw [if_neg same, List.append_nil, apart s same]
      exact h.sides s
  · intro s
    rw [departures_snoc, mine, link, List.map_append, List.append_assoc]
    by_cases same : s = source.other
    · subst same
      rw [if_pos rfl]
      exact (still.append_left _).trans (h.left _)
    · rw [if_neg same, apart s same]
      exact h.left s
  · intro s w there
    rw [link, Link.step, Link.isInterrupted_stepWrite]
    exact h.flags s w there
  · rw [link, Link.size_tokens_step]
    exact h.tokens
  · rw [link, Link.tasks_step, h.tasks]
    exact List.append_nil _
  · intro y c apart' there
    by_cases same : y = x
    · subst same
      exact onward c (next.symm.trans there)
    · exact h.others y c apart' ((elsewhere y same).symm.trans there)

/-- Whatever step a caller takes that is not the one who made the call: nothing more is done. -/
theorem Aftermath.other_step (h : Aftermath who hit m₀ deeds set handed j m) (orderly : m.Orderly)
    (booked : m.Booked)
    (blocks : ∀ s, (m₀.link.endpoint s).writers.asleep ≠ [] → (m₀.link.endpoint s).HoldsUp)
    (other : x ≠ who) (call : m.call? x = some c) (awake : m.link.isAsleep x c = false)
    (link : m'.link = (m.link.step pick x c).1) (next : m'.call? x = (m.link.step pick x c).2.next?)
    (elsewhere : ∀ y, y ≠ x → m'.call? y = m.call? y) :
    Aftermath who hit m₀ deeds set handed (j ++ [⟨x, c, (m.link.step pick x c).2⟩]) m' := by
  have waits := h.others x c other call
  cases c with
  | write source token woken =>
    cases woken with
    | false => cases waits
    | true => exact h.writer_step orderly booked blocks call awake link next elsewhere
  | awaitClosed | await | stream =>
    rw [← List.append_nil handed]
    refine h.plain_step call link next elsewhere rfl ?_ ?_ fun _ => rfl
    · intro s
      rw [Link.endpoint_step]
      exact h.sides s
    · intro s w there
      rw [Link.isInterrupted, (m.link.step_frame pick x rfl).1]
      exact h.flags s w there
  | _ => cases waits

end Machine

end Loopback
