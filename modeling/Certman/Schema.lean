import Certman.Config

/-!
# The pydantic schema of the configuration

A parsed TOML or YAML document is a `Value`. `GlobalConfig.validate`, `EntryConfig.validate` and
`AppConfig.validate` are `model_validate` for the pydantic declarations of `config.py`: a
missing field takes its declared default or fails as required, a field of the wrong type fails
at its location, and every failing field is reported, as a `ValidationError` lists them all.
`model_dump` is `dump`, and validating a dump gives the model back (`EntryConfig.validate_dump`,
`GlobalConfig.validate_dump`), which is what the merge relies on when it re-validates the
entries of the global file.
-/

namespace Certman

/-- A parsed document. A float is kept as the integer it equals, when it is finite and whole, which
is all the schema reads of it; `other` stands for the dates and times no field accepts. -/
inductive Value
  | str (s : String)
  | bool (b : Bool)
  | int (n : Int)
  | float (whole : Option Int)
  | list (xs : List Value)
  | dict (kvs : List (String × Value))
  | none
  | other
deriving Repr

/-- A step of a pydantic error location. -/
inductive LocItem
  | key (k : String)
  | index (i : Nat)
deriving DecidableEq, Repr

/-- The error types the schema can report. -/
inductive ErrorType
  | missing
  | stringType
  | boolType
  | boolParsing
  | listType
  | modelType (model : String)
deriving DecidableEq, Repr

/-- The message pydantic prints for each error type. -/
def ErrorType.msg : ErrorType → String
  | .missing => "Field required"
  | .stringType => "Input should be a valid string"
  | .boolType => "Input should be a valid boolean"
  | .boolParsing => "Input should be a valid boolean, unable to interpret input"
  | .listType => "Input should be a valid list"
  | .modelType m => "Input should be a valid dictionary or instance of " ++ m

/-- One line of a `ValidationError`. -/
structure FieldError where
  loc : List LocItem
  type : ErrorType
deriving DecidableEq, Repr

/-- The result of validating one field or model. -/
abbrev Validated (α : Type) := Except (List FieldError) α

/-! ## Combinators -/

/-- Two validations, with the errors of both: pydantic checks every field. -/
def both {α β : Type} : Validated α → Validated β → Validated (α × β)
  | .ok a, .ok b => .ok (a, b)
  | .ok _, .error e => .error e
  | .error e, .ok _ => .error e
  | .error e₁, .error e₂ => .error (e₁ ++ e₂)

/-- The errors of a nested validation, under the location of its field. -/
def withLoc {α : Type} (k : LocItem) : Validated α → Validated α
  | .ok a => .ok a
  | .error e => .error (e.map fun err => { err with loc := k :: err.loc })

/-- A field with a default. -/
def optional {α : Type} (kvs : List (String × Value)) (k : String) (dflt : α)
    (f : Value → Validated α) : Validated α :=
  match kvs.lookup k with
  | some v => withLoc (.key k) (f v)
  | none => .ok dflt

/-- A required field. -/
def required {α : Type} (kvs : List (String × Value)) (k : String)
    (f : Value → Validated α) : Validated α :=
  match kvs.lookup k with
  | some v => withLoc (.key k) (f v)
  | none => .error [⟨[.key k], .missing⟩]

/-- A `list[...]` field's items, each at its index. -/
def validateEach {α : Type} (f : Value → Validated α) : Nat → List Value → Validated (List α)
  | _, [] => .ok []
  | i, x :: xs => (both (withLoc (.index i) (f x)) (validateEach f (i + 1) xs)).map fun p => p.1 :: p.2

@[simp] theorem both_ok {α β : Type} (a : α) (b : β) :
    both (.ok a : Validated α) (.ok b) = .ok (a, b) := rfl

@[simp] theorem withLoc_ok {α : Type} (k : LocItem) (a : α) : withLoc k (.ok a) = .ok a := rfl

theorem both_eq_ok {α β : Type} {x : Validated α} {y : Validated β} {p : α × β} :
    both x y = .ok p ↔ x = .ok p.1 ∧ y = .ok p.2 := by
  cases x <;> cases y <;> simp [both, Prod.ext_iff]

theorem withLoc_eq_ok {α : Type} {k : LocItem} {x : Validated α} {a : α} :
    withLoc k x = .ok a ↔ x = .ok a := by
  cases x <;> simp [withLoc]

/-- A list validates when each of its items does. -/
theorem validateEach_eq_ok {α : Type} {f : Value → Validated α} :
    ∀ {i : Nat} {xs : List Value} {ys : List α},
      List.Forall₂ (fun x y => f x = .ok y) xs ys → validateEach f i xs = .ok ys
  | _, [], [], .nil => rfl
  | i, x :: xs, y :: ys, .cons h hs => by
    simp [validateEach, h, validateEach_eq_ok hs, Except.map]

/-! ## Field types -/

/-- A `str` field. -/
def strField : Value → Validated String
  | .str s => .ok s
  | _ => .error [⟨[], .stringType⟩]

/-- A `str | None` field. -/
def optStrField : Value → Validated (Option String)
  | .none => .ok none
  | .str s => .ok (some s)
  | _ => .error [⟨[], .stringType⟩]

/-- pydantic's lax reading of a whole number as a `bool`: `0` and `1` only. -/
def intAsBool (n : Int) : Validated Bool :=
  if n = 0 then .ok false else if n = 1 then .ok true else .error [⟨[], .boolParsing⟩]

/-- A `bool` field in pydantic's lax mode: the strings it reads as booleans, the integers `0` and
`1`, and a float that equals one of them; any other number fails to parse, and any other value is
not a boolean. -/
def boolField : Value → Validated Bool
  | .bool b => .ok b
  | .str s =>
    if lower s ∈ ["1", "on", "t", "true", "y", "yes"] then .ok true
    else if lower s ∈ ["0", "off", "f", "false", "n", "no"] then .ok false
    else .error [⟨[], .boolParsing⟩]
  | .int n => intAsBool n
  | .float (some n) => intAsBool n
  | _ => .error [⟨[], .boolType⟩]

/-- A `list[str]` field. -/
def strListField : Value → Validated (List String)
  | .list xs => validateEach strField 0 xs
  | _ => .error [⟨[], .listType⟩]

/-! ## Models -/

/-- `GlobalConfig.model_validate`. -/
def GlobalConfig.validate : Value → Validated GlobalConfig
  | .dict kvs =>
    let d : GlobalConfig := {}
    (both (optional kvs "data_dir" d.dataDir strField) <| both (optional kvs "conf_dir" d.confDir strField) <|
      both (optional kvs "run_dir" d.runDir strField) <| both (optional kvs "log_dir" d.logDir strField) <|
      both (optional kvs "output_dir" d.outputDir strField) <|
      both (optional kvs "letsencrypt_dir" d.letsencryptDir strField) <|
      both (optional kvs "acme_server" d.acmeServer strField) (optional kvs "email" d.email strField)).map
      fun (a, b, c, l, o, le, s, e) => ⟨a, b, c, l, o, le, s, e⟩
  | _ => .error [⟨[], .modelType "GlobalConfig"⟩]

/-- `CredentialsConfig.model_validate`. -/
def CredentialsConfig.validate : Value → Validated CredentialsConfig
  | .dict kvs =>
    (both (optional kvs "access_key_id" none optStrField) <|
      both (optional kvs "access_key_secret" none optStrField) (optional kvs "api_token" none optStrField)).map
      fun (a, s, t) => ⟨a, s, t⟩
  | _ => .error [⟨[], .modelType "CredentialsConfig"⟩]

/-- `EntryConfig.model_validate`. -/
def EntryConfig.validate : Value → Validated EntryConfig
  | .dict kvs =>
    (both (required kvs "name" strField) <| both (optional kvs "description" "" strField) <|
      both (required kvs "primary_domain" strField) <|
      both (optional kvs "secondary_domains" [] strListField) <|
      both (optional kvs "wildcard" true boolField) <| both (required kvs "dns_provider" strField) <|
      both (optional kvs "account_id" none optStrField)
        (optional kvs "credentials" {} CredentialsConfig.validate)).map
      fun (n, d, p, s, w, dp, a, c) => ⟨n, d, p, s, w, dp, a, c⟩
  | _ => .error [⟨[], .modelType "EntryConfig"⟩]

/-- `AppConfig.model_validate`: `global` by its alias, `entries` defaulting to `[]`. -/
def AppConfig.validate : Value → Validated AppConfig
  | .dict kvs =>
    (both (required kvs "global" GlobalConfig.validate)
      (optional kvs "entries" [] fun
        | .list xs => validateEach EntryConfig.validate 0 xs
        | _ => .error [⟨[], .listType⟩])).map fun (g, es) => ⟨g, es⟩
  | _ => .error [⟨[], .modelType "AppConfig"⟩]

/-! ## `model_dump` -/

/-- A `str | None` value as `model_dump` writes it. -/
def dumpOpt : Option String → Value
  | some s => .str s
  | none => .none

/-- `GlobalConfig.model_dump()`. -/
def GlobalConfig.dump (g : GlobalConfig) : Value :=
  .dict [("data_dir", .str g.dataDir), ("conf_dir", .str g.confDir), ("run_dir", .str g.runDir),
    ("log_dir", .str g.logDir), ("output_dir", .str g.outputDir),
    ("letsencrypt_dir", .str g.letsencryptDir), ("acme_server", .str g.acmeServer),
    ("email", .str g.email)]

/-- `CredentialsConfig.model_dump()`. -/
def CredentialsConfig.dump (c : CredentialsConfig) : Value :=
  .dict [("access_key_id", dumpOpt c.accessKeyId), ("access_key_secret", dumpOpt c.accessKeySecret),
    ("api_token", dumpOpt c.apiToken)]

/-- `EntryConfig.model_dump()`. -/
def EntryConfig.dump (e : EntryConfig) : Value :=
  .dict [("name", .str e.name), ("description", .str e.description),
    ("primary_domain", .str e.primaryDomain), ("secondary_domains", .list (e.secondaryDomains.map .str)),
    ("wildcard", .bool e.wildcard), ("dns_provider", .str e.dnsProvider),
    ("account_id", dumpOpt e.accountId), ("credentials", e.credentials.dump)]

/-! ## Round trips -/

theorem optStrField_dumpOpt (v : Option String) : optStrField (dumpOpt v) = .ok v := by
  cases v <;> rfl

theorem strListField_map_str (xs : List String) : strListField (.list (xs.map .str)) = .ok xs :=
  validateEach_eq_ok (by induction xs <;> simp_all [strField])

theorem GlobalConfig.validate_dump (g : GlobalConfig) : GlobalConfig.validate g.dump = .ok g := rfl

theorem CredentialsConfig.validate_dump (c : CredentialsConfig) :
    CredentialsConfig.validate c.dump = .ok c := by
  simp [CredentialsConfig.validate, CredentialsConfig.dump, optional, List.lookup_cons, optStrField_dumpOpt,
    Except.map]

theorem EntryConfig.validate_dump (e : EntryConfig) : EntryConfig.validate e.dump = .ok e := by
  simp [EntryConfig.validate, EntryConfig.dump, optional, required, List.lookup_cons, strField, boolField,
    optStrField_dumpOpt, strListField_map_str, CredentialsConfig.validate_dump, Except.map]

/-! ## What a failed validation reports -/

/-- The errors of a validation, none when it succeeds. -/
def errorsOf {α : Type} : Validated α → List FieldError
  | .ok _ => []
  | .error errs => errs

section Errors

variable {α β : Type}

@[simp] theorem errorsOf_both (x : Validated α) (y : Validated β) :
    errorsOf (both x y) = errorsOf x ++ errorsOf y := by
  cases x <;> cases y <;> simp [both, errorsOf]

@[simp] theorem errorsOf_withLoc (k : LocItem) (x : Validated α) :
    errorsOf (withLoc k x) = (errorsOf x).map fun err => { err with loc := k :: err.loc } := by
  cases x <;> rfl

@[simp] theorem errorsOf_map (f : α → β) (x : Validated α) : errorsOf (x.map f) = errorsOf x := by
  cases x <;> rfl

theorem eq_error_of_mem_errorsOf {x : Validated α} {err : FieldError} (h : err ∈ errorsOf x) :
    ∃ errs, x = .error errs ∧ err ∈ errs := by
  cases x with
  | ok => cases h
  | error errs => exact ⟨errs, rfl, h⟩

/-- An error of a field with a default is located under that field. -/
theorem optional_located {kvs : List (String × Value)} {k : String} {dflt : α}
    {f : Value → Validated α} {err : FieldError} (h : err ∈ errorsOf (optional kvs k dflt f)) :
    ∃ rest, err.loc = .key k :: rest := by
  unfold optional at h
  split at h
  · obtain ⟨e, -, rfl⟩ := List.mem_map.mp (errorsOf_withLoc _ _ ▸ h)
    exact ⟨_, rfl⟩
  · cases h

/-- An error of a required field is located under that field. -/
theorem required_located {kvs : List (String × Value)} {k : String} {f : Value → Validated α}
    {err : FieldError} (h : err ∈ errorsOf (required kvs k f)) : ∃ rest, err.loc = .key k :: rest := by
  unfold required at h
  split at h
  · obtain ⟨e, -, rfl⟩ := List.mem_map.mp (errorsOf_withLoc _ _ ▸ h)
    exact ⟨_, rfl⟩
  · rw [errorsOf, List.mem_singleton] at h
    exact ⟨[], by rw [h]⟩

theorem required_missing {kvs : List (String × Value)} {k : String} {f : Value → Validated α}
    (h : kvs.lookup k = none) : ⟨[.key k], .missing⟩ ∈ errorsOf (required kvs k f) := by
  simp [required, h, errorsOf]

/-- The errors of a list are its items' errors, each under the item's index. -/
theorem mem_errorsOf_validateEach {f : Value → Validated α} {err : FieldError} :
    ∀ {i : Nat} {xs : List Value}, err ∈ errorsOf (validateEach f i xs) ↔
      ∃ j : Fin xs.length, ∃ e ∈ errorsOf (f (xs.get j)), err = ⟨.index (i + j) :: e.loc, e.type⟩
  | _, [] => by simp [validateEach, errorsOf]
  | i, x :: xs => by
    simp only [validateEach, errorsOf_map, errorsOf_both, errorsOf_withLoc, List.mem_append,
      List.mem_map, mem_errorsOf_validateEach, Fin.exists_fin_succ, List.length_cons,
      List.get_eq_getElem, Fin.val_zero, Fin.val_succ, List.getElem_cons_zero,
      List.getElem_cons_succ, Nat.add_zero]
    simp only [eq_comm, Nat.add_right_comm i 1, Nat.add_assoc]

end Errors

/-- The field names of `EntryConfig`, in declaration order. -/
def EntryConfig.fields : List String :=
  ["name", "description", "primary_domain", "secondary_domains", "wildcard", "dns_provider",
    "account_id", "credentials"]

/-- Validating an entry mapping reports every error under the field it belongs to, and reports
each missing required field, whatever else is wrong with the mapping. -/
theorem EntryConfig.validate_errors (kvs : List (String × Value)) :
    (∀ err ∈ errorsOf (EntryConfig.validate (.dict kvs)),
      ∃ k ∈ EntryConfig.fields, ∃ rest, err.loc = .key k :: rest) ∧
    (∀ k ∈ ["name", "primary_domain", "dns_provider"], kvs.lookup k = none →
      ∃ errs, EntryConfig.validate (.dict kvs) = .error errs ∧ ⟨[.key k], .missing⟩ ∈ errs) := by
  refine ⟨fun err herr => ?_, fun k hk hnone => eq_error_of_mem_errorsOf ?_⟩
  · simp only [EntryConfig.validate, errorsOf_map, errorsOf_both, List.mem_append] at herr
    rcases herr with h | h | h | h | h | h | h | h
    · exact ⟨_, by decide, required_located h⟩
    · exact ⟨_, by decide, optional_located h⟩
    · exact ⟨_, by decide, required_located h⟩
    · exact ⟨_, by decide, optional_located h⟩
    · exact ⟨_, by decide, optional_located h⟩
    · exact ⟨_, by decide, required_located h⟩
    · exact ⟨_, by decide, optional_located h⟩
    · exact ⟨_, by decide, optional_located h⟩
  · simp only [EntryConfig.validate, errorsOf_map, errorsOf_both, List.mem_append]
    simp only [List.mem_cons, List.mem_singleton, List.not_mem_nil, or_false] at hk
    rcases hk with rfl | rfl | rfl <;> simp [required_missing hnone]

/-- Validating a configuration whose `entries` is a list reports the errors of `global` and, for
every item of the list, each of its errors under `entries` and the item's index, and nothing else:
every failing entry is reported, at its own position. -/
theorem AppConfig.validate_entry_errors (kvs : List (String × Value)) (xs : List Value)
    (hxs : kvs.lookup "entries" = some (.list xs)) (err : FieldError) :
    err ∈ errorsOf (AppConfig.validate (.dict kvs)) ↔
      err ∈ errorsOf (required kvs "global" GlobalConfig.validate) ∨
      ∃ j : Fin xs.length, ∃ e ∈ errorsOf (EntryConfig.validate (xs.get j)),
        err = ⟨.key "entries" :: .index j :: e.loc, e.type⟩ := by
  simp only [AppConfig.validate, errorsOf_map, errorsOf_both, List.mem_append, optional, hxs,
    errorsOf_withLoc, List.mem_map, mem_errorsOf_validateEach]
  refine or_congr_right ⟨?_, ?_⟩
  · rintro ⟨_, ⟨j, e, he, rfl⟩, rfl⟩
    exact ⟨j, e, he, by simp⟩
  · rintro ⟨j, e, he, rfl⟩
    exact ⟨_, ⟨j, e, he, rfl⟩, by simp⟩

end Certman
