import FlowCache.Library.VersionedRegister

/-!
# Two registers that write locally and exchange their writes

Each side writes its own register and sends the stamped result to the other side
over a first-in first-out channel.  What a side ends up with once its inbox has
been delivered is `drain`.  Both sides drain to the same stamped content in every
state reached by local writes that avoid one collision: the newest write waiting
in the writer's inbox carries exactly the version the local write is about to
take, with another content (`Exchange.write_keeps_agreement_iff`).
-/

namespace VersionedRegister

universe u

variable {Content : Type u}

namespace Register

/-- The register once every write in the inbox has been offered in order. -/
def drain (register : Register Content) (inbox : List (Stamped Content)) :
    Register Content :=
  inbox.foldl offer register

@[simp] theorem drain_nil (register : Register Content) :
    register.drain [] = register := rfl

@[simp] theorem drain_cons (register : Register Content)
    (incoming : Stamped Content) (rest : List (Stamped Content)) :
    register.drain (incoming :: rest) = (register.offer incoming).drain rest := rfl

theorem drain_append_singleton (register : Register Content)
    (inbox : List (Stamped Content)) (incoming : Stamped Content) :
    register.drain (inbox ++ [incoming]) = (register.drain inbox).offer incoming := by
  simp [drain, List.foldl_append]

end Register

/-- The version of the newest write in an inbox, `0` when there is none. -/
def newestVersion (inbox : List (Stamped Content)) : Nat :=
  Register.level inbox.getLast?

@[simp] theorem newestVersion_nil :
    newestVersion ([] : List (Stamped Content)) = 0 := rfl

@[simp] theorem newestVersion_append_singleton (inbox : List (Stamped Content))
    (incoming : Stamped Content) :
    newestVersion (inbox ++ [incoming]) = incoming.version := by
  simp [newestVersion]

theorem newestVersion_cons_cons (first second : Stamped Content)
    (rest : List (Stamped Content)) :
    newestVersion (first :: second :: rest) = newestVersion (second :: rest) := by
  simp [newestVersion, List.getLast?_cons_cons]

/-- Versions of an inbox increase and never skip past the receiver's counter:
each is at most one above everything the receiver has by then. -/
def Climbs (level : Nat) : List (Stamped Content) → Prop
  | [] => True
  | incoming :: rest =>
      0 < incoming.version ∧ incoming.version ≤ level + 1 ∧
        (∀ later ∈ rest, incoming.version < later.version) ∧
        Climbs (max level incoming.version) rest

theorem Climbs.mono {low high : Nat} {inbox : List (Stamped Content)}
    (le : low ≤ high) (climbs : Climbs low inbox) : Climbs high inbox := by
  induction inbox generalizing low high with
  | nil => trivial
  | cons incoming rest ih =>
      obtain ⟨positive, close, before, tail⟩ := climbs
      exact ⟨positive, by omega, before, ih (by omega) tail⟩

theorem Climbs.append_singleton {level : Nat} {inbox : List (Stamped Content)}
    {incoming : Stamped Content} (climbs : Climbs level inbox)
    (positive : 0 < incoming.version)
    (close : incoming.version ≤ max level (newestVersion inbox) + 1)
    (later : ∀ earlier ∈ inbox, earlier.version < incoming.version) :
    Climbs level (inbox ++ [incoming]) := by
  induction inbox generalizing level with
  | nil =>
      have near : incoming.version ≤ level + 1 := by simpa using close
      exact ⟨positive, near, by simp, trivial⟩
  | cons first rest ih =>
      obtain ⟨firstPositive, firstClose, before, tail⟩ := climbs
      have firstLater := later first (by simp)
      refine ⟨firstPositive, firstClose, ?_, ?_⟩
      · intro other member
        rcases List.mem_append.mp member with inRest | isLast
        · exact before other inRest
        · rw [List.mem_singleton.mp isLast]
          exact firstLater
      · apply ih tail
        · cases rest with
          | nil =>
              have newest : newestVersion [first] = first.version := rfl
              simp only [newest] at close
              simpa using close
          | cons second others =>
              rw [newestVersion_cons_cons] at close
              omega
        · exact fun earlier member => later earlier (by simp [member])

theorem lt_newestVersion {version : Nat} {inbox : List (Stamped Content)}
    (nonempty : inbox ≠ []) (before : ∀ later ∈ inbox, version < later.version) :
    version < newestVersion inbox := by
  rw [newestVersion, List.getLast?_eq_some_getLast nonempty, Register.level_some]
  exact before _ (List.getLast_mem nonempty)

theorem Climbs.newestVersion_tail {level : Nat} {incoming : Stamped Content}
    {rest : List (Stamped Content)} (climbs : Climbs level (incoming :: rest)) :
    newestVersion (incoming :: rest) = max incoming.version (newestVersion rest) := by
  cases rest with
  | nil => simp [newestVersion]
  | cons second others =>
      have later := lt_newestVersion (List.cons_ne_nil _ _) climbs.2.2.1
      rw [newestVersion_cons_cons]
      omega

theorem Climbs.level_offer {register : Register Content} {incoming : Stamped Content}
    {rest : List (Stamped Content)}
    (climbs : Climbs register.level (incoming :: rest)) :
    (register.offer incoming).level = max register.level incoming.version := by
  obtain ⟨positive, close, _, _⟩ := climbs
  by_cases le : incoming.version ≤ register.level
  · rw [Register.offer_of_le positive le]
    omega
  · rw [Register.offer_of_lt (by omega), Register.level_bump]
    omega

/-- A drained register is at the newest write of its inbox when that one is above
its counter, and unchanged otherwise. -/
theorem Climbs.drain_eq {register : Register Content}
    {inbox : List (Stamped Content)} (climbs : Climbs register.level inbox) :
    register.drain inbox =
      if newestVersion inbox ≤ register.level then register else inbox.getLast? := by
  induction inbox generalizing register with
  | nil => simp
  | cons incoming rest ih =>
      have raised := climbs.level_offer
      have newest := climbs.newestVersion_tail
      obtain ⟨positive, close, before, tail⟩ := climbs
      rw [Register.drain_cons, ih (by rwa [raised]), raised, newest]
      cases rest with
      | nil =>
          simp only [newestVersion_nil, Nat.zero_le, if_true, Nat.max_zero]
          by_cases le : incoming.version ≤ register.level
          · rw [Register.offer_of_le positive le]
            simp [le]
          · rw [Register.offer_of_lt (by omega)]
            have exact_version : register.level + 1 = incoming.version := by omega
            simp [le, Register.bump, exact_version]
      | cons second others =>
          have later := lt_newestVersion (List.cons_ne_nil _ _) before
          by_cases le : newestVersion (second :: others) ≤ register.level
          · rw [Register.offer_of_le positive (by omega)]
            rw [if_pos (by omega), if_pos (by omega)]
          · rw [if_neg (by omega), if_neg (by omega), List.getLast?_cons_cons]

theorem Climbs.level_drain {register : Register Content}
    {inbox : List (Stamped Content)} (climbs : Climbs register.level inbox) :
    (register.drain inbox).level = max register.level (newestVersion inbox) := by
  rw [climbs.drain_eq]
  split
  · omega
  · simp only [newestVersion] at *
    omega

/-! ## One direction of the exchange -/

/-- What holds between a receiver, its inbox, and the sender of the inbox. -/
structure Channel (receiver : Register Content) (inbox : List (Stamped Content))
    (sender : Register Content) : Prop where
  sent : ∀ waiting ∈ inbox, waiting.version ≤ sender.level
  climbs : Climbs receiver.level inbox
  reached : sender.level ≤ max receiver.level (newestVersion inbox)

namespace Channel

variable {receiver sender : Register Content} {inbox : List (Stamped Content)}

theorem empty : Channel (none : Register Content) [] none where
  sent := by simp
  climbs := trivial
  reached := by simp

/-- A local write of the sender joins the inbox. -/
theorem send (channel : Channel receiver inbox sender) (content : Content) :
    Channel receiver (inbox ++ [⟨sender.level + 1, content⟩]) (sender.bump content) where
  sent := by
    intro waiting member
    rcases List.mem_append.mp member with queued | last
    · have old := channel.sent waiting queued
      simp only [Register.level_bump]
      omega
    · rw [List.mem_singleton.mp last]
      simp
  climbs := by
    apply channel.climbs.append_singleton (Nat.succ_pos _)
    · have reached := channel.reached
      simpa using reached
    · intro earlier member
      have old := channel.sent earlier member
      simp only
      omega
  reached := by simp

/-- A local write of the receiver. -/
theorem receiver_bump (channel : Channel receiver inbox sender) (content : Content) :
    Channel (receiver.bump content) inbox sender where
  sent := channel.sent
  climbs := channel.climbs.mono (by simp)
  reached := by
    have reached := channel.reached
    simp only [Register.level_bump]
    omega

/-- Delivery of the oldest waiting write. -/
theorem deliver {incoming : Stamped Content} {rest : List (Stamped Content)}
    (channel : Channel receiver (incoming :: rest) sender) :
    Channel (receiver.offer incoming) rest sender where
  sent := fun waiting member => channel.sent waiting (by simp [member])
  climbs := by
    rw [channel.climbs.level_offer]
    exact channel.climbs.2.2.2
  reached := by
    have reached := channel.reached
    rw [channel.climbs.newestVersion_tail] at reached
    rw [channel.climbs.level_offer]
    omega

/-- The sender accepts a write that the receiver sent before. -/
theorem sender_offer (channel : Channel receiver inbox sender)
    {incoming : Stamped Content} (positive : 0 < incoming.version)
    (known : incoming.version ≤ receiver.level) :
    Channel receiver inbox (sender.offer incoming) where
  sent := fun waiting member =>
    (channel.sent waiting member).trans (Register.level_le_level_offer _ _)
  climbs := channel.climbs
  reached := by
    have raised : (sender.offer incoming).level ≤ max sender.level incoming.version :=
      Register.level_offer_le positive
    have reached := channel.reached
    omega

end Channel

/-! ## Both directions -/

/-- Two writers, each with its register and the inbox of writes sent to it, that
drain to the same stamped content. -/
structure Exchange (left : Register Content) (toLeft : List (Stamped Content))
    (right : Register Content) (toRight : List (Stamped Content)) : Prop where
  incoming : Channel left toLeft right
  outgoing : Channel right toRight left
  agree : left.drain toLeft = right.drain toRight

/-- The newest write waiting for a writer collides with the write it is about to
make: same version, another content. -/
def Collides (register : Register Content) (inbox : List (Stamped Content))
    (content : Content) : Prop :=
  ∃ waiting, inbox.getLast? = some waiting ∧
    waiting.version = register.level + 1 ∧ waiting.content ≠ content

instance [DecidableEq Content] (register : Register Content)
    (inbox : List (Stamped Content)) (content : Content) :
    Decidable (Collides register inbox content) :=
  inferInstanceAs (Decidable (∃ waiting ∈ inbox.getLast?,
    waiting.version = register.level + 1 ∧ waiting.content ≠ content))

namespace Exchange

variable {left right : Register Content} {toLeft toRight : List (Stamped Content)}

theorem empty : Exchange (none : Register Content) [] none [] where
  incoming := Channel.empty
  outgoing := Channel.empty
  agree := rfl

theorem symm (exchange : Exchange left toLeft right toRight) :
    Exchange right toRight left toLeft where
  incoming := exchange.outgoing
  outgoing := exchange.incoming
  agree := exchange.agree.symm

theorem deliver {incoming : Stamped Content} {rest : List (Stamped Content)}
    (exchange : Exchange left (incoming :: rest) right toRight) :
    Exchange (left.offer incoming) rest right toRight where
  incoming := exchange.incoming.deliver
  outgoing := exchange.outgoing.sender_offer exchange.incoming.climbs.1
    (exchange.incoming.sent incoming (by simp))
  agree := exchange.agree

/-- A local write keeps the two drained registers equal exactly when it does not
collide with the newest write waiting for the writer. -/
theorem write_keeps_agreement_iff (exchange : Exchange left toLeft right toRight)
    (content : Content) :
    (left.bump content).drain toLeft =
        right.drain (toRight ++ [⟨left.level + 1, content⟩]) ↔
      ¬Collides left toLeft content := by
  have before := exchange.incoming.climbs.drain_eq
  have after := (exchange.incoming.receiver_bump content).climbs.drain_eq
  have level := exchange.incoming.climbs.level_drain
  rw [Register.drain_append_singleton, ← exchange.agree, after, Register.level_bump]
  rcases lt_trichotomy (newestVersion toLeft) (left.level + 1) with below | same | above
  · rw [if_pos (by omega), Register.offer_of_lt (by simp only; omega)]
    have quiet : ¬Collides left toLeft content := by
      rintro ⟨waiting, last, version, _⟩
      rw [newestVersion, last, Register.level_some] at below
      omega
    rw [if_pos (by omega)] at before
    simp [quiet, before]
  · rw [if_pos (by omega), Register.offer_of_le (Nat.succ_pos _) (by simp only; omega)]
    rw [if_neg (by omega)] at before
    rw [before]
    cases last : toLeft.getLast? with
    | none =>
        rw [newestVersion, last, Register.level_none] at same
        omega
    | some waiting =>
        rw [newestVersion, last, Register.level_some] at same
        obtain ⟨version, held⟩ := waiting
        simp only at same
        simp [Collides, last, same, Register.bump, eq_comm]
  · rw [if_neg (by omega), Register.offer_of_le (Nat.succ_pos _) (by simp only; omega)]
    have quiet : ¬Collides left toLeft content := by
      rintro ⟨waiting, last, version, _⟩
      rw [newestVersion, last, Register.level_some] at above
      omega
    rw [if_neg (by omega)] at before
    simp [quiet, before]

theorem write (exchange : Exchange left toLeft right toRight) {content : Content}
    (quiet : ¬Collides left toLeft content) :
    Exchange (left.bump content) toLeft right
      (toRight ++ [⟨left.level + 1, content⟩]) where
  incoming := exchange.incoming.receiver_bump content
  outgoing := exchange.outgoing.send content
  agree := (exchange.write_keeps_agreement_iff content).mpr quiet

end Exchange

end VersionedRegister
