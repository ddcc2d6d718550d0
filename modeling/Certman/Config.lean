import Certman.PyStr
import Mathlib.Data.List.Dedup
import Mathlib.Data.List.Sort

/-!
# The configuration model and the secret validator

`GlobalConfig`, `CredentialsConfig`, `EntryConfig` and `AppConfig` with the defaults of their
pydantic declarations, and `_required_env_keys` with `AppConfig.validate_required_secrets`,
which `config-validate` runs over the merged entries. The environment is an explicit argument:
the `dict[str, str]` the validator reads through `env.get`, which is also what `os.getenv`
returns in the same process.

`_required_env_keys` reads an entry in three stages: the `${NAME}` references among its
credentials (`missingRefs`), whether any credential is a plain value (`hasPlain`), and only when
neither decides, its `account_id` (`account`) against the provider's key names (`accountKeys`).
-/

namespace Certman

/-! ## Models -/

/-- `GlobalConfig`. -/
structure GlobalConfig where
  dataDir : String := "data"
  confDir : String := "conf"
  runDir : String := "run"
  logDir : String := "log"
  outputDir : String := "output"
  letsencryptDir : String := "letsencrypt"
  acmeServer : String := "staging"
  email : String := "admin@example.com"
deriving DecidableEq, Repr

/-- `CredentialsConfig`: each value a literal or a `${NAME}` reference. -/
structure CredentialsConfig where
  accessKeyId : Option String := none
  accessKeySecret : Option String := none
  apiToken : Option String := none
deriving DecidableEq, Repr

/-- `EntryConfig`. -/
structure EntryConfig where
  name : String
  description : String := ""
  primaryDomain : String
  secondaryDomains : List String := []
  wildcard : Bool := true
  dnsProvider : String
  accountId : Option String := none
  credentials : CredentialsConfig := {}
deriving DecidableEq, Repr

/-- `AppConfig`; its `global_` field has the alias `global`. -/
structure AppConfig where
  global_ : GlobalConfig
  entries : List EntryConfig := []
deriving DecidableEq, Repr

/-- The process environment, as `env.get(key)` and `os.getenv(key)` see it. -/
abbrev Env := String → Option String

/-! ## `_required_env_keys` -/

/-- `_is_env_ref`. -/
def isEnvRef (value : String) : Bool :=
  startswith value "$\x7b" && endswith value "\x7d" && decide (value.length > 3)

/-- `_env_ref_key`. -/
def envRefKey (value : String) : String := strip (slice2 value)

/-- What the first loop of `_required_env_keys` appends for one credential value: the key of a
reference that `env` leaves unset. -/
def missingRef (env : Env) : Option String → List String
  | some value =>
    if value != "" && isEnvRef value && !truthy (env (envRefKey value)) then [envRefKey value]
    else []
  | none => []

/-- A credential value that is set and is not a reference. -/
def isPlain : Option String → Bool
  | some value => value != "" && !isEnvRef value
  | none => false

/-- The credential values, in the order `_required_env_keys` reads them. -/
def CredentialsConfig.values (c : CredentialsConfig) : List (Option String) :=
  [c.accessKeyId, c.accessKeySecret, c.apiToken]

/-- The unset references of an entry, in order. -/
def EntryConfig.missingRefs (env : Env) (e : EntryConfig) : List String :=
  e.credentials.values.flatMap (missingRef env)

/-- `has_any_plain_credential`. -/
def EntryConfig.hasPlain (e : EntryConfig) : Bool := e.credentials.values.any isPlain

/-- `account_id`, with `None` read as the empty string: both are falsy. -/
def EntryConfig.account (e : EntryConfig) : String := e.accountId.getD ""

/-- The env keys an `account_id` needs under a (lowered) provider, `none` when unsupported. -/
def accountKeys (provider account : String) : Option (List String) :=
  if provider = "cloudflare" then some ["CERTMAN_CLOUDFLARE_" ++ account ++ "_API_TOKEN"]
  else if provider = "route53" then
    some ["CERTMAN_AWS_" ++ account ++ "_ACCESS_KEY_ID",
      "CERTMAN_AWS_" ++ account ++ "_SECRET_ACCESS_KEY", "CERTMAN_AWS_" ++ account ++ "_REGION"]
  else if provider = "aliyun" then
    some ["CERTMAN_ALIYUN_" ++ account ++ "_ACCESS_KEY_ID",
      "CERTMAN_ALIYUN_" ++ account ++ "_ACCESS_KEY_SECRET"]
  else none

/-- The `ValueError`s of `validate_required_secrets`. -/
inductive SecretsError
  | missingEnvKeys (keys : List String)
  | unsupportedProvider (dnsProvider : String)
deriving DecidableEq, Repr

/-- The text each error carries. -/
def SecretsError.message : SecretsError → String
  | .missingEnvKeys keys => "Missing required env keys:\n" ++ "\n".intercalate keys
  | .unsupportedProvider p => "unsupported dns_provider: " ++ p

/-- `_required_env_keys`. -/
def requiredEnvKeys (entry : EntryConfig) (env : Env) : Except SecretsError (List String) :=
  let missing := entry.missingRefs env
  if !missing.isEmpty || entry.hasPlain then .ok missing
  else if entry.account = "" then .ok []
  else match accountKeys (lower entry.dnsProvider) entry.account with
    | some required => .ok (required.filter fun k => !truthy (env k))
    | none => .error (.unsupportedProvider entry.dnsProvider)

/-! ## `validate_required_secrets` -/

/-- Python's `<` on strings: lexicographic by code point. -/
def strLt : List Char → List Char → Bool
  | [], [] => false
  | [], _ :: _ => true
  | _ :: _, [] => false
  | a :: as, b :: bs => a.toNat < b.toNat || (a = b && strLt as bs)

/-- `sorted(set(keys))`. -/
def sortedSet (keys : List String) : List String :=
  keys.dedup.insertionSort fun a b => !strLt b.toList a.toList

/-- The loop of `validate_required_secrets`: every entry's keys, in order, or the first
entry's error. -/
def collectMissing (env : Env) : List EntryConfig → Except SecretsError (List String)
  | [] => .ok []
  | e :: es => do
    let keys ← requiredEnvKeys e env
    let rest ← collectMissing env es
    pure (keys ++ rest)

/-- `AppConfig.validate_required_secrets`. -/
def AppConfig.validateRequiredSecrets (cfg : AppConfig) (env : Env) : Except SecretsError Unit :=
  match collectMissing env cfg.entries with
  | .ok missing => if missing.isEmpty then .ok () else .error (.missingEnvKeys (sortedSet missing))
  | .error err => .error err

/-! ## The three stages -/

section Stages

variable {env : Env} {e : EntryConfig}

theorem requiredEnvKeys_of_refs (h : e.missingRefs env ≠ [] ∨ e.hasPlain = true) :
    requiredEnvKeys e env = .ok (e.missingRefs env) := by
  rcases h with h | h <;> simp [requiredEnvKeys, h, List.isEmpty_iff]

theorem requiredEnvKeys_of_plain_or_no_account (h : e.hasPlain = true ∨ e.account = "") :
    requiredEnvKeys e env = .ok (e.missingRefs env) := by
  by_cases hm : e.missingRefs env = []
  · rcases h with h | h <;> simp [requiredEnvKeys, hm, h]
  · simp [requiredEnvKeys, hm, List.isEmpty_iff]

theorem requiredEnvKeys_of_no_account (h₁ : e.missingRefs env = []) (h₂ : e.hasPlain = false)
    (h₃ : e.account = "") : requiredEnvKeys e env = .ok [] := by
  simp [requiredEnvKeys, h₁, h₂, h₃]

theorem requiredEnvKeys_of_account (h₁ : e.missingRefs env = []) (h₂ : e.hasPlain = false)
    (h₃ : e.account ≠ "") :
    requiredEnvKeys e env = match accountKeys (lower e.dnsProvider) e.account with
      | some required => .ok (required.filter fun k => !truthy (env k))
      | none => .error (.unsupportedProvider e.dnsProvider) := by
  simp [requiredEnvKeys, h₁, h₂, h₃]

end Stages

theorem accountKeys_eq_none_iff {p a : String} :
    accountKeys p a = none ↔ p ≠ "cloudflare" ∧ p ≠ "route53" ∧ p ≠ "aliyun" := by
  unfold accountKeys; split_ifs <;> simp_all

@[simp] theorem collectMissing_nil (env : Env) : collectMissing env [] = .ok [] := rfl

theorem collectMissing_cons (env : Env) (e : EntryConfig) (es : List EntryConfig) :
    collectMissing env (e :: es) = (do
      let keys ← requiredEnvKeys e env
      let rest ← collectMissing env es
      pure (keys ++ rest)) := rfl

end Certman
