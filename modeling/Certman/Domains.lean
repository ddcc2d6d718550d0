import Certman.Config

/-!
# The domains of an entry

`_entry_domains` lists the primary domain, the secondary domains and, for a wildcard entry,
`*.<primary>`, and drops every repeat with a loop over a `seen` set. The loop computes
`dropRepeats` of that list (`entryDomains_eq`): the list with every element after its first
occurrence removed. So `new` passes the primary domain as its first `-d`, the name certbot gives
the lineage that `renew --cert-name`, `check` and `export` look up.
-/

namespace Certman

/-- The list with every element after its first occurrence removed. -/
def dropRepeats {α : Type} [DecidableEq α] : List α → List α
  | [] => []
  | a :: l => a :: (dropRepeats l).filter (· ≠ a)

/-- The list `_entry_domains` de-duplicates. -/
def domainCandidates (entry : EntryConfig) : List String :=
  entry.primaryDomain :: entry.secondaryDomains ++
    (if entry.wildcard then ["*." ++ entry.primaryDomain] else [])

/-- The `for d in domains` loop of `_entry_domains`, from its `seen` set and `unique` list. -/
def dedupLoop : List String → List String → List String → List String
  | [], _, unique => unique
  | d :: ds, seen, unique =>
    if d ∈ seen then dedupLoop ds seen unique else dedupLoop ds (d :: seen) (unique ++ [d])

/-- `_entry_domains`. -/
def entryDomains (entry : EntryConfig) : List String := dedupLoop (domainCandidates entry) [] []

/-! ## `dropRepeats` -/

section DropRepeats

variable {α : Type} [DecidableEq α]

@[simp] theorem mem_dropRepeats {a : α} : ∀ {l : List α}, a ∈ dropRepeats l ↔ a ∈ l
  | [] => Iff.rfl
  | b :: l => by
    by_cases h : a = b <;> simp [dropRepeats, h, mem_dropRepeats]

theorem nodup_dropRepeats : ∀ l : List α, (dropRepeats l).Nodup
  | [] => List.nodup_nil
  | a :: l => List.nodup_cons.mpr ⟨by simp, (nodup_dropRepeats l).filter _⟩

theorem dropRepeats_sublist : ∀ l : List α, (dropRepeats l).Sublist l
  | [] => List.Sublist.slnil
  | a :: l => ((List.filter_sublist _).trans (dropRepeats_sublist l)).cons₂ a

end DropRepeats

/-! ## The loop -/

/-- The loop invariant: `unique` so far, then the first occurrences of the rest not yet seen. -/
theorem dedupLoop_eq : ∀ (ds seen unique : List String),
    dedupLoop ds seen unique = unique ++ (dropRepeats ds).filter (· ∉ seen)
  | [], _, _ => by simp [dedupLoop, dropRepeats]
  | d :: ds, seen, unique => by
    rw [dedupLoop]
    split_ifs with h
    · rw [dedupLoop_eq, dropRepeats, List.filter_cons_of_neg (by simpa using h), List.filter_filter]
      congr 1
      exact (List.filter_congr fun x _ => by by_cases hx : x = d <;> simp_all).symm
    · rw [dedupLoop_eq, dropRepeats, List.filter_cons_of_pos (by simpa using h), List.filter_filter]
      simp only [List.mem_cons, not_or, List.append_assoc, List.singleton_append]
      congr 2
      exact List.filter_congr fun x _ => by by_cases hx : x = d <;> simp [hx]

theorem entryDomains_eq (entry : EntryConfig) :
    entryDomains entry = dropRepeats (domainCandidates entry) := by
  simp [entryDomains, dedupLoop_eq]

/-- `_entry_domains` is the first-occurrence de-duplication of its list: no repeats, the same
domains, in first-occurrence order, the primary domain first, so that `new`'s first `-d` names
the primary domain. -/
theorem entryDomains_spec (entry : EntryConfig) :
    let candidates := entry.primaryDomain :: entry.secondaryDomains ++
      (if entry.wildcard then ["*." ++ entry.primaryDomain] else [])
    entryDomains entry = dropRepeats candidates ∧
      (entryDomains entry).Nodup ∧
      (∀ d, d ∈ entryDomains entry ↔ d ∈ candidates) ∧
      (entryDomains entry).Sublist candidates ∧
      (entryDomains entry).head? = some entry.primaryDomain ∧
      ∃ rest, (entryDomains entry).flatMap (fun d => ["-d", d]) = "-d" :: entry.primaryDomain :: rest := by
  intro candidates
  rw [entryDomains_eq]
  exact ⟨rfl, nodup_dropRepeats _, fun d => mem_dropRepeats, dropRepeats_sublist _, rfl, _, rfl⟩

end Certman
