import Mathlib.Order.Fin.Basic

/-!
# Registers with a local version counter

A register holds a content and counts its own writes.  A remote write arrives
with the version its sender's counter had reached; it is refused when the local
counter is at least as high, and otherwise written as one more local write, so
the local counter grows by one whatever version the remote write carried.

The local counter never overtakes the versions that were offered
(`level_offer_le`).  The last section says exactly when offering an element of a
log whose versions increase leaves the register at the newest element offered.
-/

namespace VersionedRegister

universe u

/-- A content stamped with a version. -/
structure Stamped (Content : Type u) where
  version : Nat
  content : Content
  deriving DecidableEq, Repr

/-- A register, empty or holding a stamped content. -/
abbrev Register (Content : Type u) := Option (Stamped Content)

variable {Content : Type u}

namespace Register

/-- The local counter; an empty register has not counted any write. -/
def level (register : Register Content) : Nat :=
  (register.map Stamped.version).getD 0

/-- A local write. -/
def bump (register : Register Content) (content : Content) : Register Content :=
  some ⟨register.level + 1, content⟩

/-- Whether a remote write is refused. -/
def refuses (register : Register Content) (incoming : Stamped Content) : Bool :=
  match register with
  | some held => incoming.version ≤ held.version
  | none => false

/-- Offer a remote write. -/
def offer (register : Register Content) (incoming : Stamped Content) :
    Register Content :=
  if register.refuses incoming then register else register.bump incoming.content

@[simp] theorem level_none : level (none : Register Content) = 0 := rfl

@[simp] theorem level_some (held : Stamped Content) :
    level (some held) = held.version := rfl

@[simp] theorem level_bump (register : Register Content) (content : Content) :
    (register.bump content).level = register.level + 1 := rfl

theorem refuses_iff {register : Register Content} {incoming : Stamped Content}
    (positive : 0 < incoming.version) :
    register.refuses incoming = true ↔ incoming.version ≤ register.level := by
  cases register with
  | none => simp [refuses]; omega
  | some held => simp [refuses]

theorem offer_of_le {register : Register Content} {incoming : Stamped Content}
    (positive : 0 < incoming.version) (le : incoming.version ≤ register.level) :
    register.offer incoming = register := by
  simp [offer, (refuses_iff positive).mpr le]

theorem offer_of_lt {register : Register Content} {incoming : Stamped Content}
    (lt : register.level < incoming.version) :
    register.offer incoming = register.bump incoming.content := by
  have accepted : ¬register.refuses incoming = true := by
    rw [refuses_iff (by omega)]
    omega
  simp [offer, accepted]

theorem level_le_level_offer (register : Register Content)
    (incoming : Stamped Content) :
    register.level ≤ (register.offer incoming).level := by
  unfold offer
  split
  · exact Nat.le_refl _
  · simp

/-- The local counter stays below the highest version offered. -/
theorem level_offer_le {register : Register Content} {incoming : Stamped Content}
    (positive : 0 < incoming.version) :
    (register.offer incoming).level ≤ max register.level incoming.version := by
  by_cases le : incoming.version ≤ register.level
  · rw [offer_of_le positive le]
    exact Nat.le_max_left _ _
  · rw [offer_of_lt (by omega), level_bump]
    omega

end Register

/-! ## A log whose versions increase -/

/-- A log of writes to one register with positive, strictly increasing
versions. -/
structure IncreasingLog (Content : Type u) (length : Nat) where
  write : Fin length → Stamped Content
  positive : ∀ index, 0 < (write index).version
  increasing : StrictMono fun index => (write index).version

namespace IncreasingLog

variable {length : Nat} (log : IncreasingLog Content length)

/-- The newest element offered once `index` has been offered too. -/
def newest (before : Option (Fin length)) (index : Fin length) : Fin length :=
  match before with
  | none => index
  | some previous => max previous index

/-- The register is at the newest element offered so far. -/
def Current (register : Register Content) (before : Option (Fin length)) : Prop :=
  register.map Stamped.content = before.map fun index => (log.write index).content

/-- The local counter has not overtaken the newest element offered so far. -/
def Bounded (register : Register Content) (before : Option (Fin length)) : Prop :=
  match before with
  | none => register = none
  | some index => register.level ≤ (log.write index).version

/-- An element is offered safely when it is not older than the newest one, when
the local counter has already reached its version, or when it carries the same
content. -/
def Safe (register : Register Content) (before : Option (Fin length))
    (index : Fin length) : Prop :=
  ∀ previous, before = some previous → index < previous →
    (log.write index).version ≤ register.level ∨
      (log.write index).content = (log.write previous).content

theorem Bounded.offer {register : Register Content} {before : Option (Fin length)}
    (bounded : log.Bounded register before) (index : Fin length) :
    log.Bounded (register.offer (log.write index)) (some (newest before index)) := by
  have offered : (register.offer (log.write index)).level ≤
      max register.level (log.write index).version :=
    Register.level_offer_le (log.positive index)
  cases before with
  | none =>
      have empty : register = none := bounded
      subst empty
      simpa [Bounded, newest] using offered
  | some previous =>
      have held : register.level ≤ (log.write previous).version := bounded
      have below := log.increasing.monotone (le_max_left previous index)
      have above := log.increasing.monotone (le_max_right previous index)
      simp only [Bounded, newest] at *
      omega

/-- Exactly the safe offers keep the register at the newest element. -/
theorem current_offer_iff {register : Register Content}
    {before : Option (Fin length)} (bounded : log.Bounded register before)
    (current : log.Current register before) (index : Fin length) :
    log.Safe register before index ↔
      log.Current (register.offer (log.write index)) (some (newest before index)) := by
  have positive := log.positive index
  cases before with
  | none =>
      have empty : register = none := bounded
      subst empty
      rw [Register.offer_of_lt (by simpa using positive)]
      simp [Safe, Current, newest, Register.bump]
  | some previous =>
      have held : register.level ≤ (log.write previous).version := bounded
      have content : register.map Stamped.content =
        some (log.write previous).content := current
      simp only [Safe, Option.some.injEq, forall_eq', Current, newest, Option.map_some]
      rcases lt_trichotomy index previous with older | same | newer
      · rw [max_eq_left older.le]
        by_cases reached : (log.write index).version ≤ register.level
        · rw [Register.offer_of_le positive reached]
          simp [reached, content]
        · rw [Register.offer_of_lt (by omega)]
          simp [older, reached, Register.bump]
      · subst same
        rw [max_self]
        by_cases reached : (log.write index).version ≤ register.level
        · rw [Register.offer_of_le positive reached]
          simp [content]
        · rw [Register.offer_of_lt (by omega)]
          simp [Register.bump]
      · rw [max_eq_right newer.le]
        have later : (log.write previous).version < (log.write index).version :=
          log.increasing newer
        rw [Register.offer_of_lt (by omega)]
        simp [newer.not_gt, Register.bump]

end IncreasingLog

end VersionedRegister
