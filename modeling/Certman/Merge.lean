import Certman.Schema

/-!
# The configuration merge

`load_config`, `load_config_dict` and `load_merged_config`. The configuration directory holds
the parsed document of each file by name (TOML and YAML parse to the same `Value`) and answers
`glob` with the sibling files a pattern matches. The merge validates the global file, reads its
`scan_items_glob`, and walks the matched files in sorted order: the global file and the
`*.example.toml` files are skipped, a document with an `entries` or a `global` key is validated
as a whole `AppConfig` and gives its entries, any other mapping is one entry named by its own
`name` or after its file. The merged mapping is validated once more at the end.

An item document that is not a mapping makes `in` or `dict()` raise; the model raises at the
`in` test (a YAML list of pairs, which `dict()` would turn into a mapping, is not modelled).

`Path.glob` checks its pattern before it lists anything, and the merge then raises its exception
(`globError`, after Python 3.11's `pathlib`): an empty pattern, an absolute one, one with no part
left once `.` parts are dropped, one whose only part is the empty one a final `/` adds, and one
with `**` inside a longer part. `glob` answers the others with the names of the files directly
under the configuration directory that the pattern matches.
-/

namespace Certman

/-- The configuration directory. -/
structure ConfDir where
  /-- The parsed document of the file of this name, when it exists. -/
  read : String → Option Value
  /-- `conf_dir.glob(pattern)`, for a pattern `globError` accepts: the names of the files it
  matches, in any order. -/
  glob : String → List String

/-- The exceptions `Path.glob` raises for its pattern before it yields anything. -/
inductive GlobError
  /-- `ValueError("Unacceptable pattern: ''")`. -/
  | unacceptable
  /-- `NotImplementedError("Non-relative patterns are unsupported")`. -/
  | nonRelative
  /-- The `IndexError` of a pattern with no part, such as `.`. -/
  | noPart
  /-- The `AttributeError` of a pattern whose only part is the empty one a final `/` adds, such
  as `./`. -/
  | onlyFinalSlash
  /-- `ValueError("Invalid pattern: '**' can only be an entire path component")`. -/
  | invalidRecursive
deriving DecidableEq, Repr

/-- What `Path.glob(pattern)` raises before it lists anything: the parts are those `pathlib`
parses, with an empty one after a final `/`, and each part is checked in turn. -/
def globError (pattern : String) : Option GlobError :=
  if pattern = "" then some .unacceptable
  else if startswith pattern "/" then some .nonRelative
  else match relParts pattern ++ (if endswith pattern "/" then [""] else []) with
    | [] => some .noPart
    | [""] => some .onlyFinalSlash
    | parts => if parts.any fun p => p != "**" && decide ("**".toList <:+: p.toList)
        then some .invalidRecursive else none

example : globError "" = some .unacceptable ∧ globError "/etc/certman/*.toml" = some .nonRelative ∧
    globError "." = some .noPart ∧ globError "./" = some .onlyFinalSlash ∧
    globError "item**.toml" = some .invalidRecursive ∧ globError "item_*.toml" = none := by decide

/-- The exceptions a load raises. -/
inductive LoadError
  /-- `FileNotFoundError` of `load_config`. -/
  | configNotFound (path : String)
  /-- The `OSError` of `read_text` on a file that is gone. -/
  | noSuchFile (path : String)
  /-- `ValueError` for an extension neither parser takes. -/
  | unsupportedFormat (suffix : String)
  /-- pydantic's `ValidationError`. -/
  | validation (errors : List FieldError)
  /-- `in` on a document that is not a mapping. -/
  | notAMapping (path : String)
  /-- An exception of `Path.glob` for the pattern `scan_items_glob`. -/
  | glob (err : GlobError)
deriving Repr

/-- `GlobalOnlyConfig`. -/
structure GlobalOnlyConfig where
  global_ : GlobalConfig
  scanItemsGlob : String := "item_*.toml"

/-- `GlobalOnlyConfig.model_validate`. -/
def GlobalOnlyConfig.validate : Value → Validated GlobalOnlyConfig
  | .dict kvs =>
    (both (required kvs "global" GlobalConfig.validate)
      (optional kvs "scan_items_glob" "item_*.toml" strField)).map fun (g, s) => ⟨g, s⟩
  | _ => .error [⟨[], .modelType "GlobalOnlyConfig"⟩]

/-- A validation inside a load. -/
def orRaise {α : Type} (x : Validated α) : Except LoadError α := x.mapError .validation

/-- The extensions `load_config` and `load_config_dict` parse, after lowering. -/
def parsedSuffix (name : String) : Bool := lower (suffix name) ∈ [".toml", ".yaml", ".yml"]

/-- `load_config`. -/
def loadConfig (dir : ConfDir) (name : String) : Except LoadError AppConfig :=
  match dir.read name with
  | none => .error (.configNotFound name)
  | some doc => if parsedSuffix name then orRaise (AppConfig.validate doc)
    else .error (.unsupportedFormat (lower (suffix name)))

/-- `load_config_dict`. -/
def loadConfigDict (dir : ConfDir) (name : String) : Except LoadError Value :=
  match dir.read name with
  | none => .error (.noSuchFile name)
  | some doc => if parsedSuffix name then .ok doc else .error (.unsupportedFormat (lower (suffix name)))

/-- `_default_name_from_item`. -/
def defaultNameFromItem (name : String) : String :=
  if startswith (stem name) "item_" then ⟨(stem name).toList.drop 5⟩ else stem name

/-- `dict.setdefault(k, v)`. -/
def setdefault (kvs : List (String × Value)) (k : String) (v : Value) : List (String × Value) :=
  if kvs.any (·.1 == k) then kvs else kvs ++ [(k, v)]

/-- A full document: one with an `entries` or a `global` key. -/
def isFullDocument (kvs : List (String × Value)) : Bool :=
  kvs.any (·.1 == "entries") || kvs.any (·.1 == "global")

/-- What one item file appends to `merged_entries`. -/
def mergeItem (dir : ConfDir) (name : String) : Except LoadError (List Value) := do
  match ← loadConfigDict dir name with
  | .dict kvs =>
    if isFullDocument kvs then
      let itemCfg ← orRaise (AppConfig.validate (.dict kvs))
      pure (itemCfg.entries.map EntryConfig.dump)
    else pure [.dict (setdefault kvs "name" (.str (defaultNameFromItem name)))]
  | _ => throw (.notAMapping name)

/-- The `for item_path in ...` loop of `load_merged_config`, with its two `continue`s. -/
def mergeItems (dir : ConfDir) (globalName : String) : List String → Except LoadError (List Value)
  | [] => .ok []
  | name :: rest =>
    if name = globalName then mergeItems dir globalName rest
    else if endswith name ".example.toml" then mergeItems dir globalName rest
    else do
      let entries ← mergeItem dir name
      let more ← mergeItems dir globalName rest
      pure (entries ++ more)

/-- `sorted(...)` of file names in one directory: by code point. -/
def sortNames (names : List String) : List String :=
  names.insertionSort fun a b => !strLt b.toList a.toList

/-- `load_merged_config`. -/
def loadMergedConfig (dir : ConfDir) (globalName : String) : Except LoadError AppConfig := do
  let baseCfg ← loadConfig dir globalName
  let globalOnly ← orRaise (GlobalOnlyConfig.validate (← loadConfigDict dir globalName))
  if let some err := globError globalOnly.scanItemsGlob then throw (.glob err)
  let items ← mergeItems dir globalName (sortNames (dir.glob globalOnly.scanItemsGlob))
  orRaise (AppConfig.validate (.dict [("global", baseCfg.global_.dump),
    ("entries", .list (baseCfg.entries.map EntryConfig.dump ++ items))]))

/-! ## What the merge produces -/

/-- What the merge's documentation says an item file contributes: a full document that validates
as an `AppConfig` its entries, in order; any other mapping one entry, named by its own `name` or
else after its file. -/
inductive Contributes (name : String) : Value → List EntryConfig → Prop
  | full {kvs : List (String × Value)} {cfg : AppConfig} :
      isFullDocument kvs = true → AppConfig.validate (.dict kvs) = .ok cfg →
      Contributes name (.dict kvs) cfg.entries
  | single {kvs : List (String × Value)} {e : EntryConfig} :
      isFullDocument kvs = false →
      EntryConfig.validate (.dict (setdefault kvs "name" (.str (defaultNameFromItem name)))) = .ok e →
      Contributes name (.dict kvs) [e]

theorem lookup_eq_none_of_any {k : String} :
    ∀ {kvs : List (String × Value)}, kvs.any (·.1 == k) = false → kvs.lookup k = none
  | [], _ => rfl
  | (k', v) :: kvs, h => by
    simp only [List.any_cons, Bool.or_eq_false_iff, beq_eq_false_iff_ne, ne_eq] at h
    simp [List.lookup_cons, beq_false_of_ne (Ne.symm h.1), lookup_eq_none_of_any h.2]

theorem lookup_append_of_none {k : String} {v : Value} :
    ∀ {kvs : List (String × Value)}, kvs.lookup k = none → (kvs ++ [(k, v)]).lookup k = some v
  | [], _ => by simp [List.lookup_nil]
  | (k', v') :: kvs, h => by
    have hk : (k == k') = false := by
      cases hb : (k == k')
      · rfl
      · simp [List.lookup_cons, hb] at h
    simp only [List.lookup_cons, List.cons_append, hk] at h ⊢
    exact lookup_append_of_none h

/-- A validated entry was read from the `name` its mapping holds. -/
theorem EntryConfig.lookup_name_of_validate {kvs : List (String × Value)} {e : EntryConfig}
    (h : EntryConfig.validate (.dict kvs) = .ok e) : kvs.lookup "name" = some (.str e.name) := by
  simp only [EntryConfig.validate, Except.map] at h
  split at h
  · cases h
  · rename_i p hp
    cases h
    obtain ⟨hn, -⟩ := both_eq_ok.mp hp
    simp only [required] at hn
    split at hn
    · rename_i v hv
      have hs := withLoc_eq_ok.mp hn
      rw [hv]
      cases v <;> simp_all [strField]
    · cases hn

/-- A single-entry item is named by its own `name`, or else after its file. -/
theorem name_of_single {name : String} {kvs : List (String × Value)} {e : EntryConfig}
    (h : EntryConfig.validate (.dict (setdefault kvs "name" (.str (defaultNameFromItem name)))) = .ok e) :
    kvs.lookup "name" = some (.str e.name) ∨
      (kvs.lookup "name" = none ∧ e.name = defaultNameFromItem name) := by
  have hl := EntryConfig.lookup_name_of_validate h
  unfold setdefault at hl
  split_ifs at hl with hany
  · exact .inl hl
  · have hnone := lookup_eq_none_of_any (Bool.eq_false_iff.mpr hany)
    rw [lookup_append_of_none hnone] at hl
    exact .inr ⟨hnone, (Value.str.inj (Option.some.inj hl)).symm⟩

/-- The entries a merged list of mappings validates to. -/
abbrev ValidatesTo (vs : List Value) (es : List EntryConfig) : Prop :=
  List.Forall₂ (fun v e => EntryConfig.validate v = .ok e) vs es

theorem validatesTo_dump (es : List EntryConfig) : ValidatesTo (es.map EntryConfig.dump) es :=
  List.forall₂_map_left_iff.mpr (List.forall₂_same.mpr fun e _ => EntryConfig.validate_dump e)

/-- One item file, read through `load_config_dict`, appends mappings that validate to what it
contributes. -/
theorem mergeItem_eq {dir : ConfDir} {name : String} {doc : Value} {es : List EntryConfig}
    (hread : dir.read name = some doc) (hsuf : parsedSuffix name = true)
    (hc : Contributes name doc es) : ∃ vs, mergeItem dir name = .ok vs ∧ ValidatesTo vs es := by
  have hload : loadConfigDict dir name = .ok doc := by simp [loadConfigDict, hread, hsuf]
  cases hc with
  | full hfull hcfg =>
    refine ⟨_, ?_, validatesTo_dump _⟩
    simp [mergeItem, hload, hfull, orRaise, hcfg, Except.mapError]
  | single hsingle he =>
    exact ⟨_, by simp [mergeItem, hload, hsingle], .cons he .nil⟩

theorem mergeItems_eq {dir : ConfDir} {g : String} {contrib : String → List EntryConfig} :
    ∀ {names : List String},
      (∀ n ∈ names.filter (fun n => n ≠ g ∧ ¬ endswith n ".example.toml"),
        ∃ doc, dir.read n = some doc ∧ parsedSuffix n = true ∧ Contributes n doc (contrib n)) →
      ∃ vs, mergeItems dir g names = .ok vs ∧
        ValidatesTo vs ((names.filter (fun n => n ≠ g ∧ ¬ endswith n ".example.toml")).flatMap contrib)
  | [], _ => ⟨[], rfl, .nil⟩
  | n :: names, h => by
    by_cases hskip : n = g ∨ endswith n ".example.toml" = true
    · have hf : ¬ (n ≠ g ∧ ¬ endswith n ".example.toml" = true) := by tauto
      rw [List.filter_cons_of_neg (by simpa using hf)] at h ⊢
      obtain ⟨vs, hvs, hv⟩ := mergeItems_eq h
      refine ⟨vs, ?_, hv⟩
      rcases hskip with h | h <;> simp [mergeItems, h, ← hvs]
    · have hk : n ≠ g ∧ ¬ endswith n ".example.toml" = true := by tauto
      rw [List.filter_cons_of_pos (by simpa using hk)] at h ⊢
      obtain ⟨doc, hread, hsuf, hc⟩ := h n (List.mem_cons_self _ _)
      obtain ⟨vs₁, h₁, hv₁⟩ := mergeItem_eq hread hsuf hc
      obtain ⟨vs₂, h₂, hv₂⟩ := mergeItems_eq fun m hm => h m (List.mem_cons_of_mem _ hm)
      exact ⟨vs₁ ++ vs₂, by simp [mergeItems, hk.1, hk.2, h₁, h₂], List.rel_append hv₁ hv₂⟩

/-- `load_merged_config` succeeds on a valid global file and valid item files, and its entries
are the global file's own, then what each kept item file contributes, in sorted order. -/
theorem loadMergedConfig_eq (dir : ConfDir) (g : String) (doc : Value) (base : AppConfig)
    (go : GlobalOnlyConfig) (contrib : String → List EntryConfig)
    (hread : dir.read g = some doc) (hsuf : parsedSuffix g = true)
    (hbase : AppConfig.validate doc = .ok base) (hgo : GlobalOnlyConfig.validate doc = .ok go)
    (hglob : globError go.scanItemsGlob = none)
    (hitems : ∀ n ∈ (sortNames (dir.glob go.scanItemsGlob)).filter
        (fun n => n ≠ g ∧ ¬ endswith n ".example.toml"),
      ∃ d, dir.read n = some d ∧ parsedSuffix n = true ∧ Contributes n d (contrib n)) :
    loadMergedConfig dir g = .ok ⟨base.global_, base.entries ++
      ((sortNames (dir.glob go.scanItemsGlob)).filter
        (fun n => n ≠ g ∧ ¬ endswith n ".example.toml")).flatMap contrib⟩ := by
  obtain ⟨vs, hvs, hv⟩ := mergeItems_eq hitems
  have hbase' : loadConfig dir g = .ok base := by
    simp [loadConfig, hread, hsuf, orRaise, hbase, Except.mapError]
  have hdoc : loadConfigDict dir g = .ok doc := by simp [loadConfigDict, hread, hsuf]
  have hall : validateEach EntryConfig.validate 0 (base.entries.map EntryConfig.dump ++ vs) =
      .ok (base.entries ++ ((sortNames (dir.glob go.scanItemsGlob)).filter
        (fun n => n ≠ g ∧ ¬ endswith n ".example.toml")).flatMap contrib) :=
    validateEach_eq_ok (List.rel_append (validatesTo_dump base.entries) hv)
  simp [loadMergedConfig, hbase', hdoc, hgo, hglob, orRaise, Except.mapError, hvs,
    AppConfig.validate, required, optional, List.lookup_cons, GlobalConfig.validate_dump, hall,
    Except.map]

/-- A pattern `Path.glob` refuses ends the load with its exception, whatever the items hold. -/
theorem loadMergedConfig_of_globError {dir : ConfDir} {g : String} {doc : Value} {base : AppConfig}
    {go : GlobalOnlyConfig} {err : GlobError}
    (hread : dir.read g = some doc) (hsuf : parsedSuffix g = true)
    (hbase : AppConfig.validate doc = .ok base) (hgo : GlobalOnlyConfig.validate doc = .ok go)
    (hglob : globError go.scanItemsGlob = some err) :
    loadMergedConfig dir g = .error (.glob err) := by
  simp [loadMergedConfig, loadConfig, loadConfigDict, hread, hsuf, orRaise, hbase, hgo, hglob,
    Except.mapError]
  rfl

/-- The files the merge reads items from: the matched names in sorted order, without the global
file and the `*.example.toml` files. -/
def keptItems (dir : ConfDir) (g pattern : String) : List String :=
  (sortNames (dir.glob pattern)).filter fun n => n ≠ g ∧ ¬ endswith n ".example.toml"

/-- The merge loses nothing, duplicates nothing and keeps order: on a valid global file and valid
item files it succeeds with the global file's entries followed by each kept item's contribution,
a single-entry item's entry named by its own `name` or else after its file, unless `Path.glob`
refuses the pattern `scan_items_glob`, which then ends the load with its exception. -/
theorem loadMergedConfig_spec (dir : ConfDir) (g : String) (doc : Value) (base : AppConfig)
    (go : GlobalOnlyConfig) (contrib : String → List EntryConfig)
    (hread : dir.read g = some doc) (hsuf : parsedSuffix g = true)
    (hbase : AppConfig.validate doc = .ok base) (hgo : GlobalOnlyConfig.validate doc = .ok go)
    (hitems : ∀ n ∈ keptItems dir g go.scanItemsGlob,
      ∃ d, dir.read n = some d ∧ parsedSuffix n = true ∧ Contributes n d (contrib n)) :
    (globError go.scanItemsGlob = none → loadMergedConfig dir g =
        .ok ⟨base.global_, base.entries ++ (keptItems dir g go.scanItemsGlob).flatMap contrib⟩) ∧
      (∀ err, globError go.scanItemsGlob = some err → loadMergedConfig dir g = .error (.glob err)) ∧
      ∀ n ∈ keptItems dir g go.scanItemsGlob, ∀ kvs, dir.read n = some (.dict kvs) →
        isFullDocument kvs = false → ∃ e, contrib n = [e] ∧
          (kvs.lookup "name" = some (.str e.name) ∨
            (kvs.lookup "name" = none ∧ e.name = defaultNameFromItem n)) := by
  refine ⟨fun hglob => loadMergedConfig_eq dir g doc base go contrib hread hsuf hbase hgo hglob hitems,
    fun _ hglob => loadMergedConfig_of_globError hread hsuf hbase hgo hglob, ?_⟩
  intro n hn kvs hkvs hsingle
  obtain ⟨d, hd, -, hc⟩ := hitems n hn
  rw [hkvs, Option.some.injEq] at hd
  subst hd
  generalize contrib n = es at hc ⊢
  cases hc with
  | full hfull _ => simp [hsingle] at hfull
  | single _ he => exact ⟨_, rfl, name_of_single he⟩

/-- An item file with an `entries` list and no `global` table fails the whole load. -/
theorem entries_without_global_fails_load :
    let dir : ConfDir :=
      ⟨fun n => if n = "config.toml" then some (.dict [("global", .dict [])])
        else if n = "item_a.toml" then some (.dict [("entries", .list [])]) else none,
       fun _ => ["item_a.toml"]⟩
    (loadMergedConfig dir "config.toml").isOk = false := rfl

/-- An item file without `name` is named after its file (`item_foo.toml` gives `foo`). -/
theorem single_item_named_after_file :
    let dir : ConfDir :=
      ⟨fun n => if n = "config.toml" then some (.dict [("global", .dict [])])
        else if n = "item_foo.toml" then
          some (.dict [("dns_provider", .str "cloudflare"), ("primary_domain", .str "a.test")])
        else none,
       fun _ => ["item_foo.toml"]⟩
    loadMergedConfig dir "config.toml" =
      .ok ⟨{}, [{ name := "foo", primaryDomain := "a.test", dnsProvider := "cloudflare" }]⟩ := by
  intro dir
  have hkept : keptItems dir "config.toml" "item_*.toml" = ["item_foo.toml"] := rfl
  exact (loadMergedConfig_spec dir "config.toml" _ ⟨{}, []⟩ ⟨{}, "item_*.toml"⟩
    (fun _ => [{ name := "foo", primaryDomain := "a.test", dnsProvider := "cloudflare" }])
    rfl rfl rfl rfl (fun n hn => by
      obtain rfl : n = "item_foo.toml" := by simpa [hkept] using hn
      exact ⟨_, rfl, rfl, .single rfl rfl⟩)).1 (by decide)

end Certman
