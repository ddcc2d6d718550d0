import Mathlib.Data.List.Infix
import Mathlib.Tactic.Common

/-!
# Python strings and `pathlib` paths

The `str` methods and the `PurePosixPath` arithmetic that `certman` uses, over `String` as its
list of characters, so that every operation reduces under `decide`. A path is its anchor and
its parts, as `pathlib` parses it; `/` appends the parts of a relative segment and replaces the
path by an absolute one.
-/

namespace Certman

/-! ## `str` -/

/-- The characters `str.isspace` accepts, which `str.strip()` removes. -/
def isSpace (c : Char) : Bool :=
  [9, 10, 11, 12, 13, 28, 29, 30, 31, 32, 133, 160, 5760, 8192, 8193, 8194, 8195, 8196, 8197,
    8198, 8199, 8200, 8201, 8202, 8232, 8233, 8239, 8287, 12288].contains c.toNat

/-- `str.strip()`. -/
def strip (s : String) : String :=
  ⟨((s.toList.dropWhile isSpace).reverse.dropWhile isSpace).reverse⟩

/-- `str.startswith(p)`. -/
def startswith (s p : String) : Bool := p.toList.isPrefixOf s.toList

/-- `str.endswith(p)`. -/
def endswith (s p : String) : Bool := p.toList.isSuffixOf s.toList

/-- The slice `s[2:-1]`. -/
def slice2 (s : String) : String := ⟨(s.toList.drop 2).dropLast⟩

/-- `str.lower()`. The mapping is ASCII's: no other character lowers into one of the provider
names the code compares a lowered string with. -/
def lower (s : String) : String := ⟨s.toList.map Char.toLower⟩

/-- Truthiness of a `str | None` value: set and not empty. -/
def truthy : Option String → Bool
  | some s => s != ""
  | none => false

@[simp] theorem truthy_none : truthy none = false := rfl

@[simp] theorem truthy_some (s : String) : truthy (some s) = (s != "") := rfl

theorem truthy_iff {v : Option String} : truthy v = true ↔ ∃ s, v = some s ∧ s ≠ "" := by
  cases v <;> simp

theorem truthy_eq_false_iff {v : Option String} : truthy v = false ↔ v = none ∨ v = some "" := by
  cases v <;> simp

/-! ## Exceptions

A Python function that raises is modelled in `Except`; these lemmas let proofs peel a `do`
block apart without unfolding it. -/

section Raise

variable {ε α β : Type} {x : Except ε α} {f : α → Except ε β}

@[simp] theorem bind_ok (a : α) (f : α → Except ε β) : (Except.ok a >>= f) = f a := rfl

@[simp] theorem bind_error (e : ε) (f : α → Except ε β) : (Except.error e >>= f) = .error e := rfl

@[simp] theorem pure_eq_ok (a : α) : (pure a : Except ε α) = .ok a := rfl

theorem bind_eq_ok_iff {b : β} : (x >>= f) = .ok b ↔ ∃ a, x = .ok a ∧ f a = .ok b := by
  cases x <;> simp

theorem bind_eq_error_iff {e : ε} :
    (x >>= f) = .error e ↔ x = .error e ∨ ∃ a, x = .ok a ∧ f a = .error e := by
  cases x <;> simp

end Raise

/-! ## File names -/

/-- The text before and after the last `.` of a name, when it has one. -/
def rsplitDot : List Char → Option (List Char × List Char)
  | [] => none
  | c :: cs =>
    match rsplitDot cs with
    | some (a, b) => some (c :: a, b)
    | none => if c = '.' then some ([], cs) else none

/-- `PurePath.suffix`: from the last dot, unless the dot starts or ends the name. -/
def suffix (name : String) : String :=
  match rsplitDot name.toList with
  | some (a, b) => if a ≠ [] ∧ b ≠ [] then ⟨'.' :: b⟩ else ""
  | none => ""

/-- `PurePath.stem`: the name without its `suffix`. -/
def stem (name : String) : String :=
  match rsplitDot name.toList with
  | some (a, b) => if a ≠ [] ∧ b ≠ [] then ⟨a⟩ else name
  | none => name

/-! ## Paths -/

/-- A `PurePosixPath`: its anchor (`""`, `"/"` or `"//"`) and its other parts. -/
@[ext] structure Path where
  root : String
  parts : List String
deriving DecidableEq, Repr

/-- `str.split("/")` over the characters. -/
def splitSlash : List Char → List (List Char)
  | [] => [[]]
  | c :: cs =>
    if c = '/' then [] :: splitSlash cs
    else match splitSlash cs with
      | [] => [[c]]
      | w :: ws => (c :: w) :: ws

/-- The parts of a path text: no empty part and no `.` part. -/
def relParts (s : String) : List String :=
  ((splitSlash s.toList).filter fun p => p != [] && p != ['.']).map String.mk

/-- `PurePosixPath(s)`: POSIX keeps a leading `//` and folds three or more slashes to `/`. -/
def Path.ofStr (s : String) : Path :=
  ⟨if startswith s "//" && !startswith s "///" then "//"
    else if startswith s "/" then "/" else "", relParts s⟩

/-- `p / s`: an absolute `s` replaces `p`, a relative one appends its parts. -/
def Path.div (p : Path) (s : String) : Path :=
  let q := Path.ofStr s
  if q.root = "" then ⟨p.root, p.parts ++ q.parts⟩ else q

/-- `p.name`: the last part, `""` for an anchor alone. -/
def Path.name (p : Path) : String := p.parts.getLastD ""

/-- `p.parent`: the path without its last part. -/
def Path.parent (p : Path) : Path := ⟨p.root, p.parts.dropLast⟩

/-- `str(p)`. -/
def Path.toStr (p : Path) : String :=
  if p.root = "" ∧ p.parts = [] then "." else p.root ++ "/".intercalate p.parts

/-- A name that `pathlib` reads as one relative part. -/
def IsPart (s : String) : Prop := Path.ofStr s = ⟨"", [s]⟩

instance (s : String) : Decidable (IsPart s) := inferInstanceAs (Decidable (_ = _))

theorem Path.div_part {p : Path} {s : String} (h : IsPart s) : p.div s = ⟨p.root, p.parts ++ [s]⟩ := by
  have h' : Path.ofStr s = ⟨"", [s]⟩ := h
  simp [Path.div, h']

/-- Appending one part is injective in the path and the part. -/
theorem Path.div_part_inj {p q : Path} {s t : String} (hs : IsPart s) (ht : IsPart t)
    (h : p.div s = q.div t) : p = q ∧ s = t := by
  rw [Path.div_part hs, Path.div_part ht, Path.mk.injEq] at h
  obtain ⟨hparts, hst⟩ := List.append_inj' h.2 rfl
  exact ⟨Path.ext h.1 hparts, List.singleton_inj.mp hst⟩

/-! ## Texts without `/` -/

theorem splitSlash_of_not_mem : ∀ {cs : List Char}, '/' ∉ cs → splitSlash cs = [cs]
  | [], _ => rfl
  | c :: cs, h => by
    have hc : c ≠ '/' := fun hc => h (hc ▸ List.mem_cons_self _ _)
    simp only [splitSlash, if_neg hc, splitSlash_of_not_mem fun h' => h (List.mem_cons_of_mem _ h')]

section SlashFree

variable {s : String} (h : '/' ∉ s.toList)
include h

theorem startswith_eq_false_of_slash_free {p : String} (hp : p.toList.head? = some '/') :
    startswith s p = false := by
  unfold startswith
  rcases p with ⟨_ | ⟨c, cs⟩⟩ <;> simp at hp
  subst hp
  rcases s with ⟨_ | ⟨d, ds⟩⟩
  · rfl
  · have hd : d ≠ '/' := fun hd => h (hd ▸ List.mem_cons_self _ _)
    simp [List.isPrefixOf, Ne.symm hd]

/-- A text without `/` is one part, or none when it is `""` or `.`. -/
theorem relParts_of_slash_free : relParts s = if s = "" ∨ s = "." then [] else [s] := by
  rcases s with ⟨cs⟩
  simp only [relParts, splitSlash_of_not_mem h, List.filter_cons, List.filter_nil]
  by_cases h1 : cs = [] <;> by_cases h2 : cs = ['.'] <;> simp_all [String.ext_iff]

/-- `p / s` for a text without `/` appends its parts to `p`. -/
theorem Path.div_of_slash_free (p : Path) : p.div s = ⟨p.root, p.parts ++ relParts s⟩ := by
  have hroot : (Path.ofStr s).root = "" := by
    simp [Path.ofStr, startswith_eq_false_of_slash_free h (p := "//") rfl,
      startswith_eq_false_of_slash_free h (p := "/") rfl]
  rw [Path.div, if_pos hroot]
  rfl

end SlashFree

end Certman
