import FlowCache.Library.SeparatedItems
import Mathlib.Data.List.Basic

/-!
# Paths and where they lead

`path.normalize` and `path.join` on POSIX systems, and the place that a path leads to: its
segments with `.` and `..` resolved.  Normalizing a path does not change where it leads,
so joining a directory with a name that stands for itself leads to a child of the
directory.
-/

namespace PosixPath

/-- A name that stands for itself. -/
structure IsPlain (name : List Char) : Prop where
  noSlash : '/' ∉ name
  nonempty : name ≠ []
  notDot : name ≠ ['.']
  notDots : name ≠ ['.', '.']

/-- The segments resolved so far and one more; `..` climbs, above the start only where
`aboveRoot` allows it. -/
def addSegment (aboveRoot : Bool) (resolved : List (List Char)) (segment : List Char) :
    List (List Char) :=
  if segment = [] ∨ segment = ['.'] then
    resolved
  else if segment = ['.', '.'] then
    if resolved ≠ [] ∧ resolved.getLast? ≠ some ['.', '.'] then
      resolved.dropLast
    else if aboveRoot then
      resolved ++ [['.', '.']]
    else
      resolved
  else
    resolved ++ [segment]

/-- Where a path leads: from the root or from the working directory. -/
structure Location where
  absolute : Bool
  segments : List (List Char)
  deriving DecidableEq, Repr

/-- A location inside another. -/
def Location.child (location : Location) (name : List Char) : Location :=
  { location with segments := location.segments ++ [name] }

theorem Location.child_injective (location : Location) :
    Function.Injective location.child := by
  intro first second same
  have segments := congrArg Location.segments same
  exact List.singleton_injective (List.append_cancel_left segments)

/-- `path.isAbsolute(path)`. -/
def isAbsolute (path : List Char) : Bool := path.head? = some '/'

/-- The location of a path. -/
def locate (path : List Char) : Location where
  absolute := isAbsolute path
  segments := (path.splitOn '/').foldl (addSegment !isAbsolute path) []

/-- `path.normalize(path)`. -/
def normalize (path : List Char) : List Char :=
  let location := locate path
  let trailingSeparator := path.getLast? = some '/'
  if location.segments = [] then
    if location.absolute then ['/'] else if trailingSeparator then ['.', '/'] else ['.']
  else
    (if location.absolute then ['/'] else []) ++ ['/'].intercalate location.segments ++
      (if trailingSeparator then ['/'] else [])

/-- `path.join(directory, name)`. -/
def join (directory name : List Char) : List Char :=
  normalize (if directory = [] then name else if name = [] then directory
    else directory ++ '/' :: name)

/-! ## Segments -/

variable {aboveRoot : Bool} {resolved : List (List Char)} {segment : List Char}

theorem addSegment_of_plain (plain : IsPlain segment) :
    addSegment aboveRoot resolved segment = resolved ++ [segment] := by
  rw [addSegment, if_neg (not_or.mpr ⟨plain.nonempty, plain.notDot⟩), if_neg plain.notDots]

/-- Segments in which nothing is left to resolve. -/
structure Settled (aboveRoot : Bool) (resolved : List (List Char)) : Prop where
  fixed : resolved.foldl (addSegment aboveRoot) [] = resolved
  shaped : ∀ segment ∈ resolved, '/' ∉ segment ∧ segment ≠ [] ∧ segment ≠ ['.']

namespace Settled

theorem nil : Settled aboveRoot [] := ⟨rfl, fun _ member => absurd member List.not_mem_nil⟩

/-- A segment that is appended stays. -/
theorem append (settled : Settled aboveRoot resolved)
    (appended : addSegment aboveRoot resolved segment = resolved ++ [segment])
    (shaped : '/' ∉ segment ∧ segment ≠ [] ∧ segment ≠ ['.']) :
    Settled aboveRoot (resolved ++ [segment]) := by
  constructor
  · rw [List.foldl_append, settled.fixed]
    exact appended
  · intro other member
    rcases List.mem_append.mp member with before | last
    · exact settled.shaped other before
    · rw [List.mem_singleton.mp last]
      exact shaped

/-- Climbing from a name leaves the segments before it. -/
theorem dropLast (settled : Settled aboveRoot resolved) (nonempty : resolved ≠ [])
    (notDots : resolved.getLast? ≠ some ['.', '.']) :
    Settled aboveRoot resolved.dropLast := by
  obtain ⟨init, last, rfl⟩ := (List.eq_nil_or_concat' resolved).resolve_left nonempty
  obtain ⟨noSlash, lastNonempty, notDot⟩ := settled.shaped last (by simp)
  have plain : IsPlain last := ⟨noSlash, lastNonempty, notDot, by simpa using notDots⟩
  have fixed := settled.fixed
  rw [List.foldl_append, List.foldl_cons, List.foldl_nil, addSegment_of_plain plain] at fixed
  rw [List.dropLast_concat]
  refine ⟨List.append_cancel_right fixed, ?_⟩
  intro other member
  exact settled.shaped other (List.mem_append_left _ member)

theorem addSegment (settled : Settled aboveRoot resolved) (noSlash : '/' ∉ segment) :
    Settled aboveRoot (addSegment aboveRoot resolved segment) := by
  by_cases skipped : segment = [] ∨ segment = ['.']
  · rw [PosixPath.addSegment, if_pos skipped]
    exact settled
  obtain ⟨nonempty, notDot⟩ := not_or.mp skipped
  by_cases dots : segment = ['.', '.']
  · subst dots
    by_cases climbs : resolved ≠ [] ∧ resolved.getLast? ≠ some ['.', '.']
    · rw [PosixPath.addSegment, if_neg skipped, if_pos rfl, if_pos climbs]
      exact settled.dropLast climbs.1 climbs.2
    · cases aboveRoot with
      | false =>
          rw [PosixPath.addSegment, if_neg skipped, if_pos rfl, if_neg climbs]
          exact settled
      | true =>
          have appended : PosixPath.addSegment true resolved ['.', '.'] =
              resolved ++ [['.', '.']] := by
            rw [PosixPath.addSegment, if_neg skipped, if_pos rfl, if_neg climbs, if_pos rfl]
          rw [appended]
          exact settled.append appended ⟨noSlash, nonempty, notDot⟩
  · have appended : PosixPath.addSegment aboveRoot resolved segment =
        resolved ++ [segment] := addSegment_of_plain ⟨noSlash, nonempty, notDot, dots⟩
    rw [appended]
    exact settled.append appended ⟨noSlash, nonempty, notDot⟩

theorem foldl (settled : Settled aboveRoot resolved) {segments : List (List Char)}
    (noSlash : ∀ segment ∈ segments, '/' ∉ segment) :
    Settled aboveRoot (segments.foldl (PosixPath.addSegment aboveRoot) resolved) := by
  induction segments generalizing resolved with
  | nil => exact settled
  | cons segment rest ih =>
      apply ih (settled.addSegment (noSlash segment List.mem_cons_self))
      intro other member
      exact noSlash other (List.mem_cons_of_mem _ member)

end Settled

theorem settled_locate (path : List Char) :
    Settled (!isAbsolute path) (locate path).segments :=
  Settled.nil.foldl fun _ => SeparatedItems.not_mem_of_mem_splitOn

/-! ## Normalizing and joining -/

theorem splitOn_cons_slash (rest : List Char) :
    ('/' :: rest).splitOn '/' = [] :: rest.splitOn '/' :=
  List.splitOn_append_cons_self_of_not_mem List.not_mem_nil rest

theorem splitOn_append_slash (path : List Char) :
    (path ++ ['/']).splitOn '/' = path.splitOn '/' ++ [[]] := by
  rw [List.splitOn_append_cons_self, List.splitOn_nil]

theorem foldl_cons_nil (segments : List (List Char)) :
    ([] :: segments).foldl (addSegment aboveRoot) resolved =
      segments.foldl (addSegment aboveRoot) resolved := by
  rw [List.foldl_cons, addSegment, if_pos (.inl rfl)]

theorem foldl_append_nil (segments : List (List Char)) :
    (segments ++ [[]]).foldl (addSegment aboveRoot) resolved =
      segments.foldl (addSegment aboveRoot) resolved := by
  rw [List.foldl_append, List.foldl_cons, List.foldl_nil, addSegment, if_pos (.inl rfl)]

/-- A text that starts with a segment is relative. -/
theorem isAbsolute_intercalate {segments : List (List Char)} (nonempty : segments ≠ [])
    (shaped : ∀ segment ∈ segments, '/' ∉ segment ∧ segment ≠ [] ∧ segment ≠ ['.'])
    (suffix : List Char) : isAbsolute (['/'].intercalate segments ++ suffix) = false := by
  obtain ⟨first, rest, rfl⟩ := List.exists_cons_of_ne_nil nonempty
  obtain ⟨noSlash, firstNonempty, -⟩ := shaped first List.mem_cons_self
  obtain ⟨char, others, rfl⟩ := List.exists_cons_of_ne_nil firstNonempty
  have different : char ≠ '/' := by
    rintro rfl
    exact noSlash List.mem_cons_self
  have head : (['/'].intercalate ((char :: others) :: rest)).head? = some char := by
    cases rest with
    | nil => simp
    | cons second later => simp [List.intercalate_cons_cons]
  rw [isAbsolute, List.head?_append, head]
  simpa using different

/-- Where a text of settled segments leads. -/
theorem locate_intercalate {absolute trailing : Bool} {segments : List (List Char)}
    (settled : Settled (!absolute) segments) (nonempty : segments ≠ []) :
    locate ((if absolute then ['/'] else []) ++ ['/'].intercalate segments ++
      (if trailing then ['/'] else [])) = ⟨absolute, segments⟩ := by
  have split := List.splitOn_intercalate '/'
    (fun segment member => (settled.shaped segment member).1) nonempty
  have folded : ∀ suffix, suffix = [] ∨ suffix = ['/'] →
      ((['/'].intercalate segments ++ suffix).splitOn '/').foldl (addSegment !absolute) [] =
        segments := by
    rintro suffix (rfl | rfl)
    · rw [List.append_nil, split, settled.fixed]
    · rw [splitOn_append_slash, split, foldl_append_nil, settled.fixed]
  have suffixes : (if trailing then ['/'] else []) = [] ∨
      (if trailing then ['/'] else []) = ['/'] := by
    cases trailing with
    | true => exact .inr rfl
    | false => exact .inl rfl
  cases absolute with
  | true =>
      have leads : isAbsolute (['/'] ++ ['/'].intercalate segments ++
          (if trailing then ['/'] else [])) = true := rfl
      simp only [if_true]
      rw [locate, leads, List.append_assoc, List.singleton_append, splitOn_cons_slash,
        foldl_cons_nil]
      exact congrArg (Location.mk true) (folded _ suffixes)
  | false =>
      simp only [Bool.false_eq_true, if_false, List.nil_append]
      rw [locate, isAbsolute_intercalate nonempty settled.shaped]
      exact congrArg (Location.mk false) (folded _ suffixes)

/-- Normalizing a path does not change where it leads. -/
theorem locate_normalize (path : List Char) : locate (normalize path) = locate path := by
  have settled := settled_locate path
  simp only [normalize]
  split
  · next empty =>
      have location : locate path = ⟨isAbsolute path, []⟩ := by
        rw [← empty]
        rfl
      rw [location]
      simp only
      cases isAbsolute path with
      | true => rfl
      | false =>
          simp only [Bool.false_eq_true, if_false]
          split
          · rfl
          · rfl
  · next nonempty =>
      have rendered := @locate_intercalate (isAbsolute path)
        (decide (path.getLast? = some '/')) _ settled nonempty
      simp only [decide_eq_true_eq] at rendered
      exact rendered

/-- A directory and a name in it. -/
theorem locate_append {directory name : List Char} (nonempty : directory ≠ [])
    (plain : IsPlain name) :
    locate (directory ++ '/' :: name) = (locate directory).child name := by
  have absolute : isAbsolute (directory ++ '/' :: name) = isAbsolute directory := by
    obtain ⟨char, rest, rfl⟩ := List.exists_cons_of_ne_nil nonempty
    rfl
  rw [locate, absolute, List.splitOn_append_cons_self, List.splitOn_eq_singleton plain.noSlash,
    List.foldl_append, List.foldl_cons, List.foldl_nil, addSegment_of_plain plain]
  rfl

/-- Joining a directory with a plain name leads to a child of the directory. -/
theorem locate_join (directory : List Char) {name : List Char} (plain : IsPlain name) :
    locate (join directory name) = (locate directory).child name := by
  rw [join, locate_normalize]
  by_cases empty : directory = []
  · subst empty
    have relative : isAbsolute name = false := by
      rw [isAbsolute, decide_eq_false_iff_not]
      intro head
      exact plain.noSlash (List.mem_of_mem_head? head)
    rw [if_pos rfl, locate, relative, List.splitOn_eq_singleton plain.noSlash,
      List.foldl_cons, List.foldl_nil, addSegment_of_plain plain]
    rfl
  · rw [if_neg empty, if_neg plain.nonempty, locate_append empty plain]

end PosixPath
