import Loopback.Proofs.Blocking
import Loopback.Proofs.Handling
import Mathlib.Data.List.Induction

/-!
# Who sleeps on the messages of a pair

On a pair anybody can use an end of a message, one caller after the other, so a sleeper is known
only by the call that it is in. `Machine.Tethered` says that whoever sleeps at an end of a message
is in a call on that end, and that nobody sleeps once an end is closed: the step that closes one
wakes whoever sleeps at the other, and the caller that takes the step is the only one at its own.
-/

namespace Loopback

namespace Pipe

variable {p : Pipe} {c : PipeCall} {who x : Nat} {e : PipeEnd}

theorem mem_sleepers_write {data : Bytes} (h : x ∈ (p.write who data).1.sleepers e) :
    x ∈ p.sleepers e ∨ (x = who ∧ e = .writer ∧ (p.write who data).2 = .sleeps) := by
  unfold write at h ⊢
  split at h
  · exact .inl h
  · next some =>
    rw [if_neg some]
    simp only [] at h ⊢
    split at h
    · cases e <;> exact .inl h
    · next whole =>
      rw [if_neg whole]
      split at h
      · next full =>
        rw [if_pos full]
        cases e with
        | reader => exact .inl h
        | writer =>
          rcases List.mem_append.1 h with before | now
          · exact .inl before
          · exact .inr ⟨List.mem_singleton.1 now, rfl, rfl⟩
      -- Bytes were written, and the reader was woken.
      · cases e with
        | reader => exact absurd h List.not_mem_nil
        | writer => exact .inl h

theorem mem_sleepers_read {limit : Nat} (h : x ∈ (p.read who limit).1.sleepers e) :
    x ∈ p.sleepers e ∨ (x = who ∧ e = .reader ∧ (p.read who limit).2 = .sleeps) := by
  unfold read at h ⊢
  split at h
  · exact .inl h
  · next some =>
    rw [if_neg some]
    simp only [] at h ⊢
    split at h
    · cases e <;> exact .inl h
    · next whole =>
      rw [if_neg whole]
      split at h
      -- Bytes were taken, and the writer was woken.
      · cases e with
        | reader => exact .inl h
        | writer => exact absurd h List.not_mem_nil
      · next empty =>
        rw [if_neg empty]
        split at h
        · cases e <;> exact .inl h
        · next opened =>
          rw [if_neg opened]
          cases e with
          | writer => exact .inl h
          | reader =>
            rcases List.mem_append.1 h with before | now
            · exact .inl before
            · exact .inr ⟨List.mem_singleton.1 now, rfl, rfl⟩

/-- Nobody falls asleep but the caller of the step, at the end that its call is made on. -/
theorem mem_sleepers_step (valid : p.ring.Valid) (h : x ∈ (p.step who c).1.sleepers e) :
    x ∈ p.sleepers e ∨ (x = who ∧ c.madeOn = e ∧ (p.step who c).2 = .asleep c) := by
  cases c with
  | write data =>
    rcases mem_sleepers_write h with before | ⟨same, rfl, sleeps⟩
    · exact .inl before
    · exact .inr ⟨same, rfl, by simp [step, sleeps, progress]⟩
  | read limit =>
    rcases mem_sleepers_read h with before | ⟨same, rfl, sleeps⟩
    · exact .inl before
    · exact .inr ⟨same, rfl, by simp [step, sleeps, progress]⟩
  | skip count =>
    simp only [step, skip_eq_read valid] at h ⊢
    rcases mem_sleepers_read h with before | ⟨same, rfl, sleeps⟩
    · exact .inl before
    · exact .inr ⟨same, rfl, by simp [sleeps, progress]⟩
  | closeWriter =>
    simp only [step, closeWriter] at h
    split at h
    · exact .inl h
    · cases e with
      | reader => exact absurd h List.not_mem_nil
      | writer => exact .inl h
  | closeReader =>
    simp only [step, closeReader] at h
    split at h
    · exact .inl h
    · cases e with
      | reader => exact .inl h
      | writer => exact absurd h List.not_mem_nil
  | _ => exact .inl h

/-- The step that closes an end of a pipe wakes whoever sleeps at the other end. -/
theorem sleepers_of_breaks (valid : p.ring.Valid) (whole : p.isBroken = false)
    (broken : (p.step who c).1.isBroken = true) :
    (p.step who c).1.sleepers c.madeOn.other = [] := by
  have kept := conserves_step valid who c
  simp only [isBroken, Bool.or_eq_false_iff] at whole
  rw [isBroken, kept.writer, kept.reader, whole.1, whole.2] at broken
  have closes : c = .closeWriter ∨ c = .closeReader := by simpa using broken
  rcases closes with rfl | rfl
  · simp [step, closeWriter, whole.1, sleepers, PipeCall.madeOn, PipeEnd.other]
  · simp [step, closeReader, whole.2, sleepers, PipeCall.madeOn, PipeEnd.other]

/-- Who falls asleep leaves both ends open. -/
theorem whole_of_asleep (valid : p.ring.Valid) (asleep : (p.step who c).2 = .asleep c) :
    (p.step who c).1.isBroken = false := by
  have kept := conserves_step valid who c
  obtain ⟨may, stuck⟩ := (asleep_iff who c p).1 asleep
  simp only [holdsUp, isBroken, Bool.and_eq_true, Bool.not_eq_true', Bool.or_eq_false_iff] at stuck
  rw [isBroken, kept.writer, kept.reader, stuck.1.1, stuck.1.2]
  cases c <;> first | rfl | simp [PipeCall.mayWait] at may

end Pipe

namespace MessageCall

/-- A call in the pipe is made on the end that it has there. -/
theorem madeOn?_of_pipeCall? {c : MessageCall} {d : PipeCall} (h : c.pipeCall? = some d) :
    c.madeOn? = some d.madeOn := by
  cases c with
  | start c =>
    simp only [pipeCall?] at h
    split at h
    · cases h
    · cases h
      rfl
  | inPipe | hangUp =>
    cases h
    rfl
  | _ => cases h

end MessageCall

namespace Link

variable {ρ η : Type} {l : Link ρ η}

/-- Who is awake in a call on a message does not sleep on it. -/
theorem ne_of_awake {who x k : Nat} {c : MessageCall} {msg : Message} {e : PipeEnd}
    (found : l.messages[k]? = some msg) (awake : l.isAsleep who (.stream k c) = false)
    (hx : x ∈ msg.pipe.sleepers e) : x ≠ who := by
  rintro rfl
  simp only [isAsleep, found] at awake
  exact Bool.noConfusion ((Pipe.isAsleep_iff.2 ⟨e, hx⟩).symm.trans awake)

end Link

namespace Machine

variable {ρ η : Type} {m m' : Machine ρ η} {k : Nat}

/-- Whoever sleeps on message `k` is in a call on the end where it sleeps, and nobody sleeps there
once an end is closed. -/
structure Tethered (k : Nat) (m : Machine ρ η) : Prop where
  tethers : ∀ msg, m.link.messages[k]? = some msg → ∀ e, ∀ x ∈ msg.pipe.sleepers e,
    ∃ c, (x, .stream k c) ∈ m.calls ∧ c.madeOn? = some e
  wakeful : ∀ msg, m.link.messages[k]? = some msg → msg.pipe.isBroken = true →
    ∀ e, msg.pipe.sleepers e = []

theorem tethered_fresh (config : Config) (first : String) (second : Option String)
    (tokens signals k : Nat) :
    (fresh config first second tokens signals : Machine ρ η).Tethered k where
  tethers msg found := by simp [fresh, create, Link.create] at found
  wakeful msg found := by simp [fresh, create, Link.create] at found

/-- A message on which nobody sleeps ties nobody. -/
theorem Tethered.of_nobody {msg : Message} (found : m.link.messages[k]? = some msg)
    (nobody : ∀ e, msg.pipe.sleepers e = []) : m.Tethered k where
  tethers msg' found' e x hx := by
    obtain rfl := Option.some.inj (found.symm.trans found')
    rw [nobody] at hx
    exact absurd hx List.not_mem_nil
  wakeful msg' found' _ e := by
    obtain rfl := Option.some.inj (found.symm.trans found')
    exact nobody e

section Serving

variable {who pick : Nat} {c : MessageCall} {msg : Message} {mv : Move ρ η}
  (h : m.Tethered k) (orderly : m.Orderly) (here : (who, .stream k c) ∈ m.calls)
  (awake : m.link.isAsleep who (.stream k c) = false) (found : m.link.messages[k]? = some msg)
  (valid : msg.pipe.ring.Valid)

include h orderly here awake found valid

/-- The caller of a step on the message may fall asleep, and stays in its call then. -/
theorem Tethered.tethers_step {calls : List (Nat × Call ρ η)}
    (own : ∀ c', (msg.step who c).2.next? = some c' → (who, .stream k c') ∈ calls)
    (others : ∀ x c', x ≠ who → (x, c') ∈ m.calls → (x, c') ∈ calls) (e : PipeEnd) (x : Nat)
    (hx : x ∈ (msg.step who c).1.pipe.sleepers e) :
    ∃ c', (x, .stream k c') ∈ calls ∧ c'.madeOn? = some e := by
  have before (hx : x ∈ msg.pipe.sleepers e) :
      ∃ c', (x, .stream k c') ∈ calls ∧ c'.madeOn? = some e := by
    obtain ⟨c', there, on⟩ := h.tethers msg found e x hx
    exact ⟨c', others x _ (Link.ne_of_awake found awake hx) there, on⟩
  rw [Message.pipe_step] at hx
  cases inPipe : c.pipeCall? with
  | none =>
    rw [inPipe] at hx
    exact before hx
  | some d =>
    rw [inPipe] at hx
    rcases Pipe.mem_sleepers_step valid hx with earlier | ⟨rfl, rfl, asleep⟩
    · exact before earlier
    · obtain ⟨c', onward⟩ := Message.asleep_of_pipe inPipe asleep
      have goesOn : (msg.step x c).2.next? = some c' := by rw [onward]; rfl
      refine ⟨c', own c' goesOn, ?_⟩
      rw [(Message.next_step (orderly.staged _ here) goesOn).1,
        MessageCall.madeOn?_of_pipeCall? inPipe]

/-- The step that closes an end wakes the other one, and nobody but its caller is at its own. -/
theorem Tethered.wakeful_step (broken : (msg.step who c).1.pipe.isBroken = true) (e : PipeEnd) :
    (msg.step who c).1.pipe.sleepers e = [] := by
  rw [Message.pipe_step] at broken ⊢
  cases inPipe : c.pipeCall? with
  | none =>
    rw [inPipe] at broken
    exact h.wakeful msg found broken e
  | some d =>
    simp only [inPipe, Option.map_some, Option.getD_some] at broken ⊢
    apply List.eq_nil_iff_forall_not_mem.2
    intro x hx
    rcases Pipe.mem_sleepers_step valid hx with earlier | ⟨-, -, asleep⟩
    · cases whole : msg.pipe.isBroken with
      | true =>
        rw [h.wakeful msg found whole e] at earlier
        exact absurd earlier List.not_mem_nil
      | false =>
        rcases d.madeOn.eq_or_eq_other e with rfl | rfl
        -- Whoever sleeps at the end of this call is in a call there, so it is the caller itself.
        · obtain ⟨c', there, on⟩ := h.tethers msg found _ x earlier
          have mine := MessageCall.madeOn?_of_pipeCall? inPipe
          have same := orderly.eq_of_madeOn? here there (e := (k, d.madeOn))
            (by simp [Call.madeOn?, mine]) (by simp [Call.madeOn?, on])
          exact Link.ne_of_awake found awake earlier same.symm
        · rw [Pipe.sleepers_of_breaks valid whole broken] at hx
          exact absurd hx List.not_mem_nil
    · rw [Pipe.whole_of_asleep valid asleep] at broken
      exact Bool.noConfusion broken

end Serving

theorem Tethered.of_moves (h : m.Tethered k) (orderly : m.Orderly)
    (valid : ∀ msg, m.link.messages[k]? = some msg → msg.pipe.ring.Valid) {mv : Move ρ η}
    {es : List (Event ρ η)} (one : Moves m mv m' es) : m'.Tethered k := by
  have handled := one.handles orderly k
  generalize es.filterMap (Event.stream? k) = events at handled
  cases handled with
  | leaves same stay =>
    constructor
    · intro msg found e x hx
      rw [same] at found
      obtain ⟨c, here, on⟩ := h.tethers msg found e x hx
      exact ⟨c, stay msg found x c here, on⟩
    · intro msg found
      rw [same] at found
      exact h.wakeful msg found
  | @rouses msg who found found' same =>
    constructor
    · intro msg' there e x hx
      obtain rfl := Option.some.inj (found'.symm.trans there)
      rw [same]
      exact h.tethers msg found e x (Pipe.sleepers_rouse_subset e hx)
    · intro msg' there broken e
      obtain rfl := Option.some.inj (found'.symm.trans there)
      apply List.subset_nil.1
      rw [← h.wakeful msg found broken e]
      exact Pipe.sleepers_rouse_subset e
  | creates absent found' => exact Tethered.of_nobody found' fun e => by cases e <;> rfl
  | serves now here awake found found' own others =>
    constructor
    · intro msg' there
      obtain rfl := Option.some.inj (found'.symm.trans there)
      exact h.tethers_step orderly here awake found (valid _ found) (fun c' => (own c').2)
        fun x c' apart => (others x c' apart).2
    · intro msg' there
      obtain rfl := Option.some.inj (found'.symm.trans there)
      exact h.wakeful_step orderly here awake found (valid _ found)

theorem tethered_run (config : Config) (first : String) (second : Option String)
    (tokens signals : Nat) (schedule : List (Move ρ η)) (k : Nat) :
    ((fresh config first second tokens signals : Machine ρ η).run schedule).Tethered k := by
  induction schedule using List.reverseRecOn with
  | nil => exact tethered_fresh ..
  | append_singleton schedule mv ih =>
    have orderly := orderly_run (orderly_fresh config first second tokens signals) schedule
    have accounted := accounted_run (ρ := ρ) (η := η) config first second tokens signals schedule k
    rw [run_append]
    exact ih.of_moves orderly (fun msg found => (accounted.matched msg found).valid)
      (moves orderly mv)

/-- Nobody sleeps on a message one of whose ends is closed. -/
theorem Tethered.awake_of_broken (h : m.Tethered k) {msg : Message}
    (found : m.link.messages[k]? = some msg) (broken : msg.pipe.isBroken = true) (who : Nat)
    (c : MessageCall) : m.link.isAsleep who (.stream k c) = false := by
  simp only [Link.isAsleep, found]
  apply Bool.eq_false_iff.2
  intro asleep
  obtain ⟨e, here⟩ := Pipe.isAsleep_iff.1 asleep
  rw [h.wakeful msg found broken e] at here
  exact absurd here List.not_mem_nil

end Machine

end Loopback
