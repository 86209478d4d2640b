import Loopback.Proofs.Sleepers

/-!
# A write, access by access

While a writer attempts to write it holds the lock of the endpoint, but neither the registry nor the
flag of its token: others use them between its accesses. `WriteStage.step` takes an attempt apart
into single accesses; what a writer does to the endpoint goes with one of them, since the lock keeps
others off. `WriteStage.registry_step` and `WriteStage.waiting_step` say what an access moves
between the writer, the registry and the wait of the endpoint. An attempt that nobody comes between
is the one step that a call makes of it (`Link.stepWrite_eq_goOn`).
-/

namespace Loopback

/-- Where a writer under a token stands. -/
inductive WriteStage where
  /-- It has the lock and looks for room. -/
  | looks
  /-- There is no room: its place goes into the registry next. -/
  | enlists
  /-- It looks at the flag before it goes to sleep. -/
  | checks
  /-- The flag was not set: it goes to sleep next. -/
  | dozes
  /-- The flag is set: its entry leaves the registry next, and it gives up. -/
  | withdraws
  /-- It gave the lock back and waits, asleep or woken. -/
  | waits
  /-- It runs again and has the lock: its entry leaves the registry next. -/
  | returns
  /-- It looks at the flag again. -/
  | rechecks
  deriving DecidableEq, Repr

namespace WriteStage

variable {ι ρ μ : Type} [BEq ι]

/-- The writer has the lock of its endpoint. -/
def isInside : WriteStage → Bool
  | .waits => false
  | _ => true

/-- The place of the writer is in the registry. -/
def isEntered : WriteStage → Bool
  | .checks | .dozes | .withdraws | .waits | .returns => true
  | _ => false

/-- The writer takes its entry back next. -/
def isLeaving : WriteStage → Bool
  | .withdraws | .returns => true
  | _ => false

/-- One access of the writer `w` of the message `m`, which blocks at `place`. -/
def step (pick : Nat) (w : Writer) (place : ι) (m : μ) (e : Endpoint ρ μ) (t : Token ι) :
    WriteStage → (Endpoint ρ μ × Token ι) × Progress WriteStage (Entry ρ)
  | .looks =>
      if e.closed then ((e, t), .done (.refused .notOpen))
      else if e.mailbox.isFull then ((e, t), .more .enlists)
      else
        let (e, entry) := e.accept pick m
        ((e, t), .done entry)
  | .enlists => ((e, t.park place), .more .checks)
  | .checks =>
      if t.isSet then ((e, t), .more .withdraws) else ((e, t), .more .dozes)
  | .dozes => (({ e with writers := e.writers.sleep w }, t), .asleep .waits)
  | .withdraws => ((e, t.unpark place), .done (.refused .interrupted))
  | .waits => (({ e with writers := e.writers.leave w }, t), .more .returns)
  | .returns => ((e, t.unpark place), .more .rechecks)
  | .rechecks =>
      if t.isSet then ((e.notifyOne pick, t), .done (.refused .interrupted))
      else ((e, t), .more .looks)

/-- The accesses of a writer from one stage on, `n` of them at most, up to where it gives the lock
back. -/
def goOn (pick : Nat) (w : Writer) (place : ι) (m : μ) :
    Nat → Endpoint ρ μ → Token ι → WriteStage →
      (Endpoint ρ μ × Token ι) × Progress WriteStage (Entry ρ)
  | 0, e, t, stage => ((e, t), .more stage)
  | n + 1, e, t, stage =>
      match stage.step pick w place m e t with
      | ((e, t), .more stage) => goOn pick w place m n e t stage
      | outcome => outcome

end WriteStage

/-- An entry that is made and taken back leaves the registry as it was. -/
theorem Token.unpark_park {ι : Type} [BEq ι] [LawfulBEq ι] (place : ι) (t : Token ι) :
    (t.park place).unpark place = t := by
  have entered : place ∈ (t.park place).parked := by simp [park]
  obtain ⟨i, found⟩ := Option.isSome_iff_exists.1 (List.isSome_idxOf?.2 entered)
  obtain ⟨here, at_i, -⟩ := List.idxOf?_eq_some_iff.1 found
  -- The last entry is for the same place as the one it replaces.
  have same := List.set_getElem_self here
  rw [at_i] at same
  have final : (t.park place).parked.getLast? = some place := by simp [park]
  simp only [unpark, found, final, same]
  simp [park]

namespace WriteStage

variable {ι ρ μ : Type} [BEq ι] {pick : Nat} {w : Writer} {place : ι} {m : μ}
  {e : Endpoint ρ μ} {t : Token ι}

/-- What the section of an attempt that ends in `entry` comes to. -/
def settled (place : ι) (e : Endpoint ρ μ) (t : Token ι) :
    Entry ρ → (Endpoint ρ μ × Token ι) × Progress WriteStage (Entry ρ)
  | .sleeps => ((e, t.park place), .asleep .waits)
  | entry => ((e, t), .done entry)

/-- A section that nobody comes between is one attempt. -/
theorem goOn_looks [LawfulBEq ι] (n : Nat) :
    goOn pick w place m (n + 5) e t .looks =
      settled place (e.enter pick w t.isSet m).1 t (e.enter pick w t.isSet m).2 := by
  unfold Endpoint.enter
  cases shut : e.closed with
  | true => simp [goOn, step, shut, settled]
  | false =>
    cases full : e.mailbox.isFull with
    | false =>
      -- A message that is taken is answered at once.
      have taken : settled place (e.accept pick m).1 t (e.accept pick m).2 =
          (((e.accept pick m).1, t), .done (e.accept pick m).2) := by
        unfold Endpoint.accept
        split <;> rfl
      simp [goOn, step, shut, full, taken]
    | true =>
      cases flag : t.isSet with
      | true => simp [goOn, step, shut, full, flag, settled, Token.unpark_park]
      | false => simp [goOn, step, shut, full, flag, settled]

/-- So is one of a writer that was woken, whose old entry leaves the registry first. -/
theorem goOn_waits [LawfulBEq ι] (n : Nat) :
    goOn pick w place m (n + 8) e t .waits =
      settled place (e.resume pick w t.isSet m).1 (t.unpark place)
        (e.resume pick w t.isSet m).2 := by
  cases flag : t.isSet with
  | true => simp [goOn, step, flag, Endpoint.resume, settled]
  | false =>
    have again : goOn pick w place m (n + 5) { e with writers := e.writers.leave w }
        (t.unpark place) .looks = _ := goOn_looks n
    rw [Token.isSet_unpark, flag] at again
    rw [Endpoint.resume_again, ← again]
    simp [goOn, step, flag]

/-- A section comes to an end. -/
theorem exists_settled [LawfulBEq ι] (pick : Nat) (w : Writer) (place : ι) (m : μ)
    (e : Endpoint ρ μ) (t : Token ι) (woken : Bool) :
    ∃ (e' : Endpoint ρ μ) (t' : Token ι) (entry : Entry ρ),
      goOn pick w place m 8 e t (if woken then .waits else .looks) = settled place e' t' entry := by
  cases woken with
  | false => exact ⟨_, _, _, goOn_looks 3⟩
  | true => exact ⟨_, _, _, goOn_waits 0⟩

/-- A writer keeps the lock up to the end of its section. -/
theorem isInside_of_more {stage stage' : WriteStage}
    (onward : (stage.step pick w place m e t).2 = .more stage') : stage'.isInside = true := by
  cases stage with
  | looks =>
    simp only [step] at onward
    split at onward
    · cases onward
    · split at onward <;> cases onward
      rfl
  | checks | rechecks =>
    simp only [step] at onward
    split at onward <;> cases onward <;> rfl
  | withdraws | dozes => cases onward
  | _ => cases onward; rfl

/-! ## What an access moves -/

/-- The entry of a writer at `place` in the registry. -/
def recorded? (place : ι) (stage : WriteStage) : Option ι :=
  if stage.isEntered then some place else none

/-- The writer `w` as one of those that wait. -/
def sleeper? (w : Writer) (stage : WriteStage) : Option Writer :=
  if stage = .waits then some w else none

variable {stage : WriteStage}

/-- An access moves an entry between the writer and the registry, and loses none. -/
theorem registry_step [LawfulBEq ι] (entered : stage.isEntered = true → place ∈ t.parked) :
    let outcome := stage.step pick w place m e t
    ((stage.recorded? place).toList ++ outcome.1.2.parked).Perm
      ((outcome.2.next?.bind (recorded? place)).toList ++ t.parked) := by
  cases stage with
  | looks =>
    simp only [step]
    split
    · exact .refl _
    · split <;> exact .refl _
  | enlists => exact List.perm_append_singleton place t.parked
  | checks | rechecks =>
    simp only [step]
    split <;> exact .refl _
  | waits | dozes => exact .refl _
  | withdraws | returns => exact (Token.parked_unpark (entered rfl)).symm

/-- An access moves a writer in and out of the wait of its endpoint, and loses none. -/
theorem waiting_step (pick : Nat) (place : ι) (m : μ) (t : Token ι)
    (woken : stage = .waits → w ∈ e.writers.woken) :
    let outcome := stage.step pick w place m e t
    ((stage.sleeper? w).toList ++ outcome.1.1.writers.waiting).Perm
      ((outcome.2.next?.bind (sleeper? w)).toList ++ e.writers.waiting) := by
  cases stage with
  | looks =>
    simp only [step]
    split
    · exact .refl _
    · split
      · exact .refl _
      · have writers : (e.accept pick m).1.writers = e.writers.notifyOne pick := by
          unfold Endpoint.accept
          split <;> rfl
        show (e.accept pick m).1.writers.waiting.Perm e.writers.waiting
        rw [writers]
        exact Condition.waiting_notifyOne pick e.writers
  | checks =>
    simp only [step]
    split <;> exact .refl _
  | dozes => exact Condition.waiting_sleep w e.writers
  | rechecks =>
    simp only [step]
    split
    · exact Condition.waiting_notifyOne pick e.writers
    · exact .refl _
  | waits => exact (Condition.waiting_leave e.writers (woken rfl)).symm
  | enlists | withdraws | returns => exact .refl _

end WriteStage

/-- The entry that a section came to. -/
def Progress.entry {ρ : Type} : Progress WriteStage (Entry ρ) → Entry ρ
  | .done entry => entry
  | .more _ | .asleep _ => .sleeps

namespace Link

variable {ρ η : Type} {l : Link ρ η} {t : Nat} {token : Token Side}

/-- An attempt leaves the endpoint and the token as its section does, and comes to the same. -/
theorem finishWrite_eq_settled {l' : Link ρ η} (known : l'.tokens[t]? = some token)
    (size : l'.messages.size = l.messages.size) (source : Side) (e : Endpoint ρ Nat)
    (entry : Entry ρ) :
    let alone := WriteStage.settled source.other e token entry
    let after := l'.finishWrite source (some t) e entry
    after.1.endpoint source.other = alone.1.1 ∧ after.1.tokens[t]? = some alone.1.2 ∧
      after.2 = (l.finishWrite source (some t) alone.1.1 alone.2.entry).2 := by
  refine ⟨?_, ?_, ?_⟩
  · rw [endpoint_finishWrite, if_pos rfl]
    cases entry <;> rfl
  · cases entry with
    | sleeps =>
      simp only [finishWrite, modifyToken?, getElem?_modifyToken, if_true, tokens_setEndpoint,
        known]
      rfl
    | _ => exact known
  · cases entry <;> simp [finishWrite, WriteStage.settled, Progress.entry, size]

/-- The step of a write under a token does what the section of its writer does when nobody comes
between. -/
theorem stepWrite_eq_goOn (known : l.tokens[t]? = some token) (pick who : Nat) (source : Side)
    (woken : Bool) :
    let alone := WriteStage.goOn pick ⟨who, some t⟩ source.other l.messages.size 8
      (l.endpoint source.other) token (if woken then .waits else .looks)
    let after := l.stepWrite pick who source (some t) woken
    after.1.endpoint source.other = alone.1.1 ∧ after.1.tokens[t]? = some alone.1.2 ∧
      after.2 = (l.finishWrite source (some t) alone.1.1 alone.2.entry).2 := by
  have flag : l.isInterrupted (some t) = token.isSet := by simp [isInterrupted, known]
  cases woken with
  | false =>
    simp only [Bool.false_eq_true, if_false, WriteStage.goOn_looks 3, stepWrite_first, flag]
    exact finishWrite_eq_settled known rfl source _ _
  | true =>
    have left : (l.modifyToken? (some t) (·.unpark source.other)).tokens[t]? =
        some (token.unpark source.other) := by
      simp [getElem?_modifyToken?, known]
    simp only [if_true, WriteStage.goOn_waits 0, stepWrite_woken, flag]
    exact finishWrite_eq_settled left (congrArg _ (messages_modifyToken? l _ _)) source _ _

end Link

end Loopback
