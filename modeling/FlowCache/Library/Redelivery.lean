import FlowCache.Library.VersionedRegister

/-!
# Replaying a log with rewinds

A log changes a register by stamped writes and by erasures; `none` is a log
position that concerns something else.  A reader that moves forward one position
at a time, but may jump back at any point, re-offers writes it has already seen.
The invariant is that one log position decides the register, and that no later
position up to the reader's cursor concerns it (`DecidedAt`).  When the cursor is
at the end of the log, the deciding position is the last one that concerns the
register.
-/

namespace VersionedRegister

universe u

variable {Content : Type u}

/-- What one log position does to a register. -/
inductive Change (Content : Type u) where
  | put (write : Stamped Content)
  | drop

/-- Replay one log position. -/
def Register.apply (register : Register Content) :
    Option (Change Content) → Register Content
  | none => register
  | some (.put write) => register.offer write
  | some .drop => none

/-- The content a change leaves behind at its origin. -/
def Change.content : Change Content → Option Content
  | .put write => some write.content
  | .drop => none

variable (log : Nat → Option (Change Content))

/-- Writes carry positive versions that increase between erasures. -/
structure Rising : Prop where
  positive : ∀ position write, log position = some (.put write) → 0 < write.version
  increasing : ∀ earlier later first second, earlier < later →
    log earlier = some (.put first) → log later = some (.put second) →
    (∀ between, earlier < between → between < later → log between = none) →
    first.version < second.version

/-- No position after `position`, up to and including `cursor`, changes the
register. -/
def QuietUpTo (position cursor : Nat) : Prop :=
  ∀ between, position < between → between ≤ cursor → log between = none

/-- The register is as the change at `position` left it, up to a counter that may
lag behind. -/
structure DecidedAt (register : Register Content) (cursor position : Nat) : Prop where
  decided : ∃ change, log position = some change ∧
    register.map Stamped.content = change.content
  lags : ∀ write, log position = some (.put write) → register.level ≤ write.version
  quiet : QuietUpTo log position cursor

variable {log}

/-- The first position that concerns an empty register decides it. -/
theorem DecidedAt.first (rising : Rising log) {position : Nat}
    {change : Change Content} (found : log position = some change) :
    DecidedAt log (Register.apply none (log position)) position position where
  decided := by
    refine ⟨change, found, ?_⟩
    rw [found]
    cases change with
    | put write =>
        have accepted : Register.level (none : Register Content) < write.version :=
          rising.positive position write found
        rw [Register.apply, Register.offer_of_lt accepted]
        rfl
    | drop => rfl
  lags := by
    intro write isPut
    have positive := rising.positive position write isPut
    have offered : (Register.offer none write).level ≤ max 0 write.version :=
      Register.level_offer_le positive
    rw [isPut, Register.apply]
    omega
  quiet := fun between after upTo => absurd after (Nat.not_lt.mpr upTo)

/-- A write that is refused lies at or before the deciding position. -/
theorem DecidedAt.refused_not_later (rising : Rising log)
    {register : Register Content} {cursor position next : Nat}
    (decidedAt : DecidedAt log register cursor position) (move : next ≤ cursor + 1)
    {write : Stamped Content} (isPut : log next = some (.put write))
    (refused : write.version ≤ register.level) : next ≤ position := by
  by_contra later
  have after : position < next := Nat.lt_of_not_le later
  obtain ⟨change, found, content⟩ := decidedAt.decided
  cases change with
  | drop =>
      have positive := rising.positive next write isPut
      have empty : register = none := by simpa [Change.content] using content
      rw [empty, Register.level_none] at refused
      omega
  | put deciding =>
      have lag := decidedAt.lags deciding found
      have newer : deciding.version < write.version := by
        apply rising.increasing position next deciding write after found isPut
        intro between afterPosition beforeNext
        exact decidedAt.quiet between afterPosition (by omega)
      omega

/-- Moving one position forward, or back to any earlier one, keeps the register
decided. -/
theorem DecidedAt.step (rising : Rising log) {register : Register Content}
    {cursor position next : Nat} (decidedAt : DecidedAt log register cursor position)
    (move : next ≤ cursor + 1) :
    ∃ deciding, DecidedAt log (register.apply (log next)) next deciding := by
  cases found : log next with
  | none =>
      refine ⟨position, decidedAt.decided, decidedAt.lags, ?_⟩
      intro between after upTo
      by_cases isNext : between = next
      · rw [isNext, found]
      · exact decidedAt.quiet between after (by omega)
  | some change =>
      cases change with
      | drop =>
          refine ⟨next, ⟨.drop, found, rfl⟩, ?_, ?_⟩
          · intro write isPut
            rw [found] at isPut
            cases isPut
          · exact fun between after upTo => absurd after (Nat.not_lt.mpr upTo)
      | put write =>
          have positive := rising.positive next write found
          by_cases refused : write.version ≤ register.level
          · rw [Register.apply, Register.offer_of_le positive refused]
            have notLater := decidedAt.refused_not_later rising move found refused
            exact ⟨position, decidedAt.decided, decidedAt.lags,
              fun between after upTo => absurd after (by omega)⟩
          · rw [Register.apply, Register.offer_of_lt (by omega)]
            refine ⟨next, ⟨.put write, found, rfl⟩, ?_, ?_⟩
            · intro other isPut
              rw [found] at isPut
              cases isPut
              rw [Register.level_bump]
              omega
            · exact fun between after upTo => absurd after (Nat.not_lt.mpr upTo)

/-- Two registers decided by the same log, with both cursors at its end, hold the
same content. -/
theorem DecidedAt.content_eq {left right : Register Content}
    {last leftPosition rightPosition : Nat}
    (leftDecided : DecidedAt log left last leftPosition)
    (rightDecided : DecidedAt log right last rightPosition)
    (ended : ∀ position, last < position → log position = none) :
    left.map Stamped.content = right.map Stamped.content := by
  obtain ⟨leftChange, leftFound, leftContent⟩ := leftDecided.decided
  obtain ⟨rightChange, rightFound, rightContent⟩ := rightDecided.decided
  have inLog : ∀ position change, log position = some change → position ≤ last := by
    intro position change found
    by_contra beyond
    rw [ended position (by omega)] at found
    cases found
  have same : leftPosition = rightPosition := by
    rcases Nat.lt_trichotomy leftPosition rightPosition with before | equal | after
    · have quiet := leftDecided.quiet rightPosition before (inLog _ _ rightFound)
      rw [quiet] at rightFound
      cases rightFound
    · exact equal
    · have quiet := rightDecided.quiet leftPosition after (inLog _ _ leftFound)
      rw [quiet] at leftFound
      cases leftFound
  subst same
  rw [leftFound] at rightFound
  cases rightFound
  rw [leftContent, rightContent]

/-! ## The origin of a log -/

/-- The register a change leaves behind at its origin. -/
def Change.result : Change Content → Register Content
  | .put write => some write
  | .drop => none

/-- A log of `length` positions is what an initially empty register's local writes
and erasures produced. -/
structure Records (log : Nat → Option (Change Content)) (register : Register Content)
    (length : Nat) : Prop where
  ended : ∀ position, length ≤ position → log position = none
  rising : Rising log
  latest : (register = none ∧ ∀ position, log position = none) ∨
    ∃ position change, log position = some change ∧
      (∀ later, position < later → log later = none) ∧ register = change.result

theorem Records.empty :
    Records (fun _ => none : Nat → Option (Change Content)) none 0 where
  ended := fun _ _ => rfl
  rising := by
    constructor
    · intro position write impossible
      cases impossible
    · intro earlier later first second before impossible
      cases impossible
  latest := .inl ⟨rfl, fun _ => rfl⟩

/-- A position that concerns something else. -/
theorem Records.skip {register : Register Content} {length : Nat}
    (records : Records log register length) : Records log register (length + 1) where
  ended := fun position beyond => records.ended position (by omega)
  rising := records.rising
  latest := records.latest

private theorem update_ended {length : Nat} {change : Change Content}
    (ended : ∀ position, length ≤ position → log position = none) :
    ∀ position, length + 1 ≤ position →
      Function.update log length (some change) position = none := by
  intro position beyond
  rw [Function.update_of_ne (by omega)]
  exact ended position (by omega)

private theorem update_latest {length : Nat} (change : Change Content)
    (ended : ∀ position, length ≤ position → log position = none) :
    ∃ position found, Function.update log length (some change) position = some found ∧
      (∀ later, position < later →
        Function.update log length (some change) later = none) ∧
      change.result = found.result := by
  refine ⟨length, change, Function.update_self .., ?_, rfl⟩
  exact fun later after => update_ended ended later (by omega)

/-- Everything below the end of an extended log is as it was. -/
private theorem update_below {length position : Nat} {added : Option (Change Content)}
    {change : Change Content} (below : position ≠ length)
    (found : Function.update log length added position = some change) :
    log position = some change := by
  rwa [Function.update_of_ne below] at found

/-- Changes are recorded before the end of the log. -/
theorem Records.lt_length {register : Register Content} {length position : Nat}
    {change : Change Content} (records : Records log register length)
    (found : log position = some change) : position < length := by
  by_contra beyond
  rw [records.ended position (Nat.le_of_not_lt beyond)] at found
  cases found

/-- An erasure at the origin extends the log. -/
theorem Records.drop {register : Register Content} {length : Nat}
    (records : Records log register length) :
    Records (Function.update log length (some .drop)) none (length + 1) where
  ended := update_ended records.ended
  rising := by
    have notEnd : ∀ position write,
        Function.update log length (some .drop) position = some (.put write) →
        position ≠ length := by
      rintro position write found rfl
      rw [Function.update_self] at found
      cases found
    constructor
    · intro position write found
      exact records.rising.positive position write
        (update_below (notEnd _ _ found) found)
    · intro earlier later first second before firstFound secondFound quiet
      have firstBelow := notEnd _ _ firstFound
      have secondFound' := update_below (notEnd _ _ secondFound) secondFound
      have inLog := records.lt_length secondFound'
      apply records.rising.increasing earlier later first second before
        (update_below firstBelow firstFound) secondFound'
      intro between after upTo
      have silent := quiet between after upTo
      rwa [Function.update_of_ne (by omega)] at silent
  latest := .inr (update_latest .drop records.ended)

/-- The register is what the last recorded change left. -/
theorem Records.eq_result_of_quiet {register : Register Content} {length position : Nat}
    {change : Change Content} (records : Records log register length)
    (found : log position = some change)
    (quiet : ∀ between, position < between → between < length → log between = none) :
    register = change.result := by
  rcases records.latest with ⟨_, silent⟩ | ⟨last, lastChange, lastFound, tail, result⟩
  · rw [silent position] at found
    cases found
  · have isLast : last = position := by
      rcases Nat.lt_trichotomy last position with below | same | above
      · rw [tail position below] at found
        cases found
      · exact same
      · rw [quiet last above (records.lt_length lastFound)] at lastFound
        cases lastFound
    subst isLast
    rw [found] at lastFound
    cases lastFound
    exact result

/-- A local write at the origin extends the log with its stamped result. -/
theorem Records.put {register : Register Content} {length : Nat}
    (records : Records log register length) (content : Content) :
    Records
      (Function.update log length (some (.put ⟨register.level + 1, content⟩)))
      (register.bump content) (length + 1) where
  ended := update_ended records.ended
  rising := by
    constructor
    · intro position write found
      by_cases atEnd : position = length
      · subst atEnd
        rw [Function.update_self] at found
        cases found
        exact Nat.succ_pos _
      · exact records.rising.positive position write (update_below atEnd found)
    · intro earlier later first second before firstFound secondFound quiet
      have laterLe : later ≤ length := by
        by_contra beyond
        rw [update_ended records.ended later (by omega)] at secondFound
        cases secondFound
      have firstFound' := update_below (by omega) firstFound
      have silent : ∀ between, earlier < between → between < later →
          log between = none := by
        intro between after upTo
        have updated := quiet between after upTo
        rwa [Function.update_of_ne (by omega)] at updated
      by_cases atEnd : later = length
      · subst atEnd
        rw [Function.update_self] at secondFound
        cases secondFound
        simp [records.eq_result_of_quiet firstFound' silent, Change.result]
      · exact records.rising.increasing earlier later first second before
          firstFound' (update_below atEnd secondFound) silent
  latest := .inr (update_latest (.put ⟨register.level + 1, content⟩) records.ended)

/-- The origin's register is decided by the last position that concerns it. -/
theorem Records.decidedAt {register : Register Content} {length : Nat}
    (records : Records log register length) {position : Nat} {change : Change Content}
    (concerned : log position = some change) :
    ∃ deciding, DecidedAt log register (length - 1) deciding := by
  rcases records.latest with ⟨_, silent⟩ | ⟨last, lastChange, found, tail, result⟩
  · rw [silent position] at concerned
    cases concerned
  · refine ⟨last, ⟨lastChange, found, ?_⟩, ?_, fun between after _ => tail between after⟩
    · rw [result]
      cases lastChange <;> rfl
    · intro write isPut
      rw [found] at isPut
      cases isPut
      rw [result]
      exact Nat.le_refl _

end VersionedRegister
