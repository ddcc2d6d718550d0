import Certman.Secrets
import Certman.Merge

/-!
# `sorted` on strings

`validate_required_secrets` reports `sorted(set(missing))` and `load_merged_config` walks
`sorted(conf_dir.glob(...))`. Python orders strings by code point (`strLt`), a strict total order,
so each sort has one possible result for a given multiset of inputs. Hence the missing keys
`config-validate` reports come each once, in increasing order, and are exactly the keys the entries
report (`validateRequiredSecrets_missing_keys`); reordering the entries changes at most which
unsupported provider it names (`validateRequiredSecrets_perm`); and the merged configuration does
not depend on the order in which the file system lists the item files
(`loadMergedConfig_glob_perm`).
-/

namespace Certman

/-! ## Code-point order -/

theorem eq_of_toNat_eq {a b : Char} (h : a.toNat = b.toNat) : a = b :=
  Char.ext (UInt32.toNat.inj h)

theorem strLt_irrefl : ∀ a : List Char, strLt a a = false
  | [] => rfl
  | _ :: as => by simp [strLt, strLt_irrefl as]

theorem strLt_trans : ∀ {a b c : List Char}, strLt a b = true → strLt b c = true → strLt a c = true
  | [], _ :: _, _ :: _, _, _ => rfl
  | x :: as, y :: bs, z :: cs, h₁, h₂ => by
    simp only [strLt, Bool.or_eq_true, decide_eq_true_eq, Bool.and_eq_true] at h₁ h₂ ⊢
    rcases h₁ with h₁ | ⟨rfl, h₁⟩ <;> rcases h₂ with h₂ | ⟨rfl, h₂⟩
    · exact .inl (by omega)
    · exact .inl h₁
    · exact .inl h₂
    · exact .inr ⟨rfl, strLt_trans h₁ h₂⟩
  | [], [], _, h, _ | _ :: _, [], _, h, _ | _, _ :: _, [], _, h => by simp [strLt] at h

theorem eq_of_not_strLt : ∀ {a b : List Char}, strLt a b = false → strLt b a = false → a = b
  | [], [], _, _ => rfl
  | x :: as, y :: bs, h₁, h₂ => by
    simp only [strLt, Bool.or_eq_false_iff, decide_eq_false_iff_not, Bool.and_eq_false_iff] at h₁ h₂
    have hxy : x = y := eq_of_toNat_eq (by omega)
    subst hxy
    simp only [not_true_eq_false, decide_False, false_or, decide_True, true_and,
      Bool.false_eq_true] at h₁ h₂
    rw [eq_of_not_strLt h₁.2 h₂.2]
  | [], _ :: _, h, _ | _ :: _, [], _, h => by simp [strLt] at h

/-- `sorted` puts `a` before `b` unless `b < a`: the relation `sortedSet` and `sortNames` pass to
`insertionSort` is total, transitive and antisymmetric. -/
theorem strLe_total (a b : String) :
    (!strLt b.toList a.toList) = true ∨ (!strLt a.toList b.toList) = true := by
  cases h : strLt a.toList b.toList
  · exact .inr rfl
  · cases h' : strLt b.toList a.toList
    · exact .inl rfl
    · simpa [strLt_irrefl] using strLt_trans h h'

theorem strLe_trans {a b c : String} (h₁ : (!strLt b.toList a.toList) = true)
    (h₂ : (!strLt c.toList b.toList) = true) : (!strLt c.toList a.toList) = true := by
  simp only [Bool.not_eq_true'] at *
  cases h : strLt c.toList a.toList
  · rfl
  · cases hab : strLt a.toList b.toList
    · rw [eq_of_not_strLt hab h₁, h₂] at h; cases h
    · rw [strLt_trans h hab] at h₂; exact h₂

theorem strLe_antisymm {a b : String} (h₁ : (!strLt b.toList a.toList) = true)
    (h₂ : (!strLt a.toList b.toList) = true) : a = b :=
  String.ext (eq_of_not_strLt (by simpa using h₂) (by simpa using h₁))

theorem strLt_of_le_of_ne {a b : String} (hle : (!strLt b.toList a.toList) = true) (hne : a ≠ b) :
    strLt a.toList b.toList = true := by
  cases h : strLt a.toList b.toList
  · exact absurd (String.ext (eq_of_not_strLt h (by simpa using hle))) hne
  · rfl

/-! ## Sorting -/

theorem sorted_insertionSort_strLe (l : List String) :
    (l.insertionSort fun a b => !strLt b.toList a.toList).Sorted
      fun a b => (!strLt b.toList a.toList) = true :=
  @List.sorted_insertionSort _ _ _ ⟨strLe_total⟩ ⟨fun _ _ _ => strLe_trans⟩ l

/-- A sort's result depends only on the multiset it sorts. -/
theorem insertionSort_eq_of_perm {l l' : List String} (h : l.Perm l') :
    l.insertionSort (fun a b => !strLt b.toList a.toList) =
      l'.insertionSort (fun a b => !strLt b.toList a.toList) :=
  @List.eq_of_perm_of_sorted _ _ ⟨fun _ _ => strLe_antisymm⟩ _ _
    ((List.perm_insertionSort _ _).trans (h.trans (List.perm_insertionSort _ _).symm))
    (sorted_insertionSort_strLe l) (sorted_insertionSort_strLe l')

theorem sortedSet_sorted (keys : List String) :
    (sortedSet keys).Sorted fun a b => strLt a.toList b.toList = true := by
  have hs := sorted_insertionSort_strLe keys.dedup
  have hn : (sortedSet keys).Nodup := (List.perm_insertionSort _ _).nodup_iff.mpr (List.nodup_dedup _)
  exact (hs.and hn).imp fun h => strLt_of_le_of_ne h.1 h.2

theorem sortedSet_eq_of_mem_iff {keys keys' : List String} (h : ∀ k, k ∈ keys ↔ k ∈ keys') :
    sortedSet keys = sortedSet keys' :=
  insertionSort_eq_of_perm <| (List.perm_ext_iff_of_nodup (List.nodup_dedup _) (List.nodup_dedup _)).mpr
    fun k => by simp only [List.mem_dedup, h]

theorem sortNames_eq_of_perm {names names' : List String} (h : names.Perm names') :
    sortNames names = sortNames names' :=
  insertionSort_eq_of_perm h

/-! ## `config-validate` -/

section Missing

variable {env : Env}

theorem collectMissing_of_mem : ∀ {es : List EntryConfig} {ks : List String} {e : EntryConfig},
    collectMissing env es = .ok ks → e ∈ es → ∃ ks', requiredEnvKeys e env = .ok ks' ∧ ks' ⊆ ks
  | e₀ :: es, ks, e, h, he => by
    obtain ⟨keys, hk, h⟩ := bind_eq_ok_iff.mp h
    obtain ⟨rest, hr, h⟩ := bind_eq_ok_iff.mp h
    cases h
    rcases List.mem_cons.mp he with rfl | he
    · exact ⟨keys, hk, List.subset_append_left _ _⟩
    · obtain ⟨ks', hk', hsub⟩ := collectMissing_of_mem hr he
      exact ⟨ks', hk', hsub.trans (List.subset_append_right _ _)⟩

theorem mem_of_mem_collectMissing : ∀ {es : List EntryConfig} {ks : List String} {k : String},
    collectMissing env es = .ok ks → k ∈ ks →
      ∃ e ∈ es, ∃ ks', requiredEnvKeys e env = .ok ks' ∧ k ∈ ks'
  | [], _, _, h, hk => by cases h; cases hk
  | e :: es, ks, k, h, hk => by
    obtain ⟨keys, he, h⟩ := bind_eq_ok_iff.mp h
    obtain ⟨rest, hr, h⟩ := bind_eq_ok_iff.mp h
    cases h
    rcases List.mem_append.mp hk with hk | hk
    · exact ⟨e, List.mem_cons_self _ _, keys, he, hk⟩
    · obtain ⟨e', he', ks', h', hk'⟩ := mem_of_mem_collectMissing hr hk
      exact ⟨e', List.mem_cons_of_mem _ he', ks', h', hk'⟩

/-- The keys the loop collects are those some entry reports. -/
theorem mem_collectMissing {es : List EntryConfig} {ks : List String}
    (h : collectMissing env es = .ok ks) (k : String) :
    k ∈ ks ↔ ∃ e ∈ es, ∃ ks', requiredEnvKeys e env = .ok ks' ∧ k ∈ ks' := by
  refine ⟨mem_of_mem_collectMissing h, fun ⟨e, he, ks', hk, hmem⟩ => ?_⟩
  obtain ⟨ks'', hk', hsub⟩ := collectMissing_of_mem h he
  rw [hk] at hk'
  cases hk'
  exact hsub hmem

/-- Over a permutation of the entries the loop rejects both or neither; when neither, it collects
the same keys, in some order. -/
theorem collectMissing_perm {es es' : List EntryConfig} (hp : es.Perm es') :
    (∃ p p', collectMissing env es = .error (.unsupportedProvider p) ∧
      collectMissing env es' = .error (.unsupportedProvider p')) ∨
    ∃ ks ks', collectMissing env es = .ok ks ∧ collectMissing env es' = .ok ks' ∧
      ∀ k, k ∈ ks ↔ k ∈ ks' := by
  have hrej : ∀ {es es' : List EntryConfig} {ks err}, es.Perm es' → collectMissing env es = .ok ks →
      collectMissing env es' = .error err → False := fun hp h h' => by
    obtain ⟨pre, e, post, rfl, -, hr, rfl⟩ := collectMissing_eq_error_iff.mp h'
    obtain ⟨ks', hk, -⟩ :=
      collectMissing_of_mem h (hp.mem_iff.mpr (List.mem_append_right _ (List.mem_cons_self _ _)))
    simp [requiredEnvKeys_eq_error_iff.mpr ⟨hr, rfl⟩] at hk
  cases hc : collectMissing env es with
  | error err =>
    cases hc' : collectMissing env es' with
    | error err' =>
      obtain ⟨-, e, -, -, -, -, rfl⟩ := collectMissing_eq_error_iff.mp hc
      obtain ⟨-, e', -, -, -, -, rfl⟩ := collectMissing_eq_error_iff.mp hc'
      exact .inl ⟨_, _, rfl, rfl⟩
    | ok ks' => exact (hrej hp.symm hc' hc).elim
  | ok ks =>
    cases hc' : collectMissing env es' with
    | error err' => exact (hrej hp hc hc').elim
    | ok ks' =>
      refine .inr ⟨ks, ks', rfl, rfl, fun k => ?_⟩
      simp only [mem_collectMissing hc, mem_collectMissing hc', hp.mem_iff]

end Missing

/-- When `config-validate` reports missing keys, it reports at least one, each key once in
increasing code-point order, and exactly the keys some entry's `_required_env_keys` reports. -/
theorem validateRequiredSecrets_missing_keys {cfg : AppConfig} {env : Env} {K : List String}
    (h : cfg.validateRequiredSecrets env = .error (.missingEnvKeys K)) :
    K ≠ [] ∧ K.Sorted (fun a b => strLt a.toList b.toList = true) ∧
      ∀ k, k ∈ K ↔ ∃ e ∈ cfg.entries, ∃ ks, requiredEnvKeys e env = .ok ks ∧ k ∈ ks := by
  unfold AppConfig.validateRequiredSecrets at h
  cases hc : collectMissing env cfg.entries with
  | error err =>
    simp only [hc, Except.error.injEq] at h
    obtain ⟨_, _, _, _, _, _, h'⟩ := collectMissing_eq_error_iff.mp hc
    rw [h] at h'
    cases h'
  | ok missing =>
    simp only [hc] at h
    by_cases hm : missing = []
    · simp [hm] at h
    · have hK : sortedSet missing = K := by simpa [hm] using h
      subst hK
      refine ⟨fun hnil => hm (List.eq_nil_iff_forall_not_mem.mpr fun k hk => ?_), sortedSet_sorted _,
        fun k => mem_sortedSet.trans (mem_collectMissing hc k)⟩
      simpa [hnil] using mem_sortedSet.mpr hk

/-- Two entries referencing `$\x7bB\x7d` and `$\x7bA\x7d`: `config-validate` reports `A` before `B`. -/
theorem missing_keys_of_two_entries :
    let cfg : AppConfig := { global_ := {}
                             entries := [{ name := "b", primaryDomain := "b.test", dnsProvider := "aliyun"
                                           credentials := { accessKeyId := some "$\x7bB\x7d" } },
                                         { name := "a", primaryDomain := "a.test", dnsProvider := "aliyun"
                                           credentials := { accessKeyId := some "$\x7bA\x7d" } }] }
    cfg.validateRequiredSecrets (fun _ => none) = .error (.missingEnvKeys ["A", "B"]) ∧
      ["A", "B"] ≠ [] ∧ ["A", "B"].Sorted (fun a b => strLt a.toList b.toList = true) ∧
      ∀ k, k ∈ ["A", "B"] ↔
        ∃ e ∈ cfg.entries, ∃ ks, requiredEnvKeys e (fun _ => none) = .ok ks ∧ k ∈ ks :=
  ⟨rfl, validateRequiredSecrets_missing_keys rfl⟩

/-- Reordering the entries of a configuration changes at most which unsupported provider
`config-validate` names. -/
theorem validateRequiredSecrets_perm {cfg cfg' : AppConfig} (env : Env)
    (hp : cfg.entries.Perm cfg'.entries) :
    cfg.validateRequiredSecrets env = cfg'.validateRequiredSecrets env ∨
      ∃ p p', cfg.validateRequiredSecrets env = .error (.unsupportedProvider p) ∧
        cfg'.validateRequiredSecrets env = .error (.unsupportedProvider p') := by
  unfold AppConfig.validateRequiredSecrets
  rcases @collectMissing_perm env _ _ hp with ⟨p, p', hc, hc'⟩ | ⟨ks, ks', hc, hc', hmem⟩
  · exact .inr ⟨p, p', by rw [hc], by rw [hc']⟩
  · have hnil : ks.isEmpty = ks'.isEmpty :=
      Bool.eq_iff_iff.mpr (by simp only [List.isEmpty_iff, List.eq_nil_iff_forall_not_mem, hmem])
    exact .inl (by simp only [hc, hc', hnil, sortedSet_eq_of_mem_iff hmem])

/-- Two entries of unknown providers: swapped, the error names the other provider. -/
theorem swapped_unknown_providers :
    let e₁ : EntryConfig := { name := "a", primaryDomain := "a.test", dnsProvider := "x"
                              accountId := some "1" }
    let e₂ : EntryConfig := { name := "b", primaryDomain := "b.test", dnsProvider := "y"
                              accountId := some "2" }
    [e₁, e₂].Perm [e₂, e₁] ∧
      ((⟨{}, [e₁, e₂]⟩ : AppConfig).validateRequiredSecrets (fun _ => none) =
          (⟨{}, [e₂, e₁]⟩ : AppConfig).validateRequiredSecrets (fun _ => none) ∨
        ∃ p p', (⟨{}, [e₁, e₂]⟩ : AppConfig).validateRequiredSecrets (fun _ => none) =
            .error (.unsupportedProvider p) ∧
          (⟨{}, [e₂, e₁]⟩ : AppConfig).validateRequiredSecrets (fun _ => none) =
            .error (.unsupportedProvider p')) :=
  ⟨.swap _ _ _, @validateRequiredSecrets_perm ⟨{}, [_, _]⟩ ⟨{}, [_, _]⟩ _ (.swap _ _ _)⟩

/-! ## The merge -/

theorem mergeItems_glob (read : String → Option Value) (glob glob' : String → List String) (g : String) :
    ∀ names, mergeItems ⟨read, glob⟩ g names = mergeItems ⟨read, glob'⟩ g names
  | [] => rfl
  | name :: rest => by
    simp only [mergeItems, mergeItems_glob read glob glob' g rest]
    rfl

/-- The merged configuration does not depend on the order in which the file system lists the
files `scan_items_glob` matches. -/
theorem loadMergedConfig_glob_perm {dir dir' : ConfDir} (g : String) (hread : dir.read = dir'.read)
    (hglob : ∀ pattern, (dir.glob pattern).Perm (dir'.glob pattern)) :
    loadMergedConfig dir g = loadMergedConfig dir' g := by
  obtain ⟨read, glob⟩ := dir
  obtain ⟨read', glob'⟩ := dir'
  obtain rfl : read = read' := hread
  simp only [loadMergedConfig, sortNames_eq_of_perm (hglob _), mergeItems_glob read glob glob']
  rfl

/-- Two item files listed in either order merge to the same configuration. -/
theorem merge_of_two_items_either_order :
    let read : String → Option Value := fun n =>
      if n = "config.toml" then some (.dict [("global", .dict [])])
      else if n = "item_a.toml" ∨ n = "item_b.toml" then
        some (.dict [("dns_provider", .str "cloudflare"), ("primary_domain", .str "a.test")])
      else none
    ["item_b.toml", "item_a.toml"].Perm ["item_a.toml", "item_b.toml"] ∧
      loadMergedConfig ⟨read, fun _ => ["item_b.toml", "item_a.toml"]⟩ "config.toml" =
        loadMergedConfig ⟨read, fun _ => ["item_a.toml", "item_b.toml"]⟩ "config.toml" :=
  ⟨.swap _ _ _, loadMergedConfig_glob_perm _ rfl fun _ => .swap _ _ _⟩

end Certman
