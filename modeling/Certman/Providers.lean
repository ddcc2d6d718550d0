import Certman.Config

/-!
# The aliyun credential resolver

`_resolve_value` and `aliyun_credentials_for_entry`: explicit credentials first, each a literal
or a `${NAME}` reference, then the `CERTMAN_ALIYUN_{account_id}_*` variables. The resolver reads
the same environment as the validator, through `os.getenv`. `write_aliyun_credentials_ini`
is the text it writes; where it lands is the command layer's business.
-/

namespace Certman

/-- `AliyunCredentials`. -/
structure AliyunCredentials where
  accessKeyId : String
  accessKeySecret : String
deriving DecidableEq, Repr

/-- The `ValueError`s of the resolver. -/
inductive CredentialError
  | missingEnvVar (key : String)
  | missingAccountOrCredentials
  | missingAliyunEnvKeys (accountId : String)
deriving DecidableEq, Repr

/-- The text each error carries. -/
def CredentialError.message : CredentialError → String
  | .missingEnvVar key => "missing env var for reference: " ++ key
  | .missingAccountOrCredentials => "aliyun entry missing account_id or credentials"
  | .missingAliyunEnvKeys a => "missing aliyun env keys for account_id=" ++ a

/-- `_resolve_value`: a stripped literal, or the non-empty value of the variable a stripped
`${NAME}` names. -/
def resolveValue (env : Env) (value : String) : Except CredentialError String :=
  let value := strip value
  if startswith value "$\x7b" && endswith value "\x7d" then
    let key := strip (slice2 value)
    match env key with
    | some resolved => if resolved = "" then .error (.missingEnvVar key) else .ok resolved
    | none => .error (.missingEnvVar key)
  else .ok value

/-- The two `CERTMAN_ALIYUN_{account_id}_*` variable names. -/
def aliyunKeyId (account : String) : String := "CERTMAN_ALIYUN_" ++ account ++ "_ACCESS_KEY_ID"

/-- See `aliyunKeyId`. -/
def aliyunKeySecret (account : String) : String :=
  "CERTMAN_ALIYUN_" ++ account ++ "_ACCESS_KEY_SECRET"

/-- `aliyun_credentials_for_entry`. -/
def aliyunCredentialsForEntry (env : Env) (entry : EntryConfig) :
    Except CredentialError AliyunCredentials :=
  let creds := entry.credentials
  if truthy creds.accessKeyId && truthy creds.accessKeySecret then do
    let ak ← resolveValue env (creds.accessKeyId.getD "")
    let sk ← resolveValue env (creds.accessKeySecret.getD "")
    pure ⟨ak, sk⟩
  else if entry.account = "" then .error .missingAccountOrCredentials
  else
    let ak := env (aliyunKeyId entry.account)
    let sk := env (aliyunKeySecret entry.account)
    if truthy ak && truthy sk then .ok ⟨ak.getD "", sk.getD ""⟩
    else .error (.missingAliyunEnvKeys entry.account)

/-- The text `write_aliyun_credentials_ini` writes. -/
def aliyunCredentialsIni (creds : AliyunCredentials) : String :=
  "dns_aliyun_access_key = " ++ creds.accessKeyId ++ "\n" ++
    "dns_aliyun_access_key_secret = " ++ creds.accessKeySecret ++ "\n"

/-! ## Spec lemmas -/

section Resolver

variable {env : Env} {e : EntryConfig}

theorem aliyunCredentialsForEntry_explicit {a s : String}
    (ha : e.credentials.accessKeyId = some a) (hs : e.credentials.accessKeySecret = some s)
    (ha' : a ≠ "") (hs' : s ≠ "") :
    aliyunCredentialsForEntry env e = (do
      let ak ← resolveValue env a
      let sk ← resolveValue env s
      pure ⟨ak, sk⟩) := by
  simp [aliyunCredentialsForEntry, ha, hs, ha', hs']

theorem aliyunCredentialsForEntry_account
    (h : truthy e.credentials.accessKeyId = false ∨ truthy e.credentials.accessKeySecret = false)
    (hacc : e.account ≠ "") :
    (aliyunCredentialsForEntry env e).isOk =
      (truthy (env (aliyunKeyId e.account)) && truthy (env (aliyunKeySecret e.account))) := by
  have h' : (truthy e.credentials.accessKeyId && truthy e.credentials.accessKeySecret) = false := by
    rcases h with h | h <;> simp [h]
  simp only [aliyunCredentialsForEntry, h', hacc]
  split_ifs <;> simp_all [Except.isOk, Except.toBool]

end Resolver

end Certman
