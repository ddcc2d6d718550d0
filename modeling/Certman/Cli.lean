import Certman.Runtime
import Certman.Providers
import Certman.Domains
import Mathlib.Logic.Function.Basic

/-!
# The commands

`new`, `renew`, `export`, and the helpers they share, as steps on a `World`: the files under the
data directory and the record of what the commands did that outlives them, each certbot run and
each file `export_entry` copies. Certbot itself is a parameter: it answers each argv with an exit
code and its output, and may change the files. A command that raises keeps the world it had
reached, as Python keeps its side effects.

A typer command called directly from Python, as `check --fix` calls `new` and `renew`, receives
for every parameter it omits the `typer.Option(...)` object that stands as its default; such an
object is truthy (`Param.truthy`).

The file store is lexical: a `Path` is its list of parts, and the store has no directories,
symbolic links, resolution of `..` or `mkdir`. What is proved below about which files a command
writes, and how an export mirrors the live files, holds on such a store.

Not modelled: the text the commands print, and the JSON log each one writes under `log_dir`
with a timestamp in its name.
-/

namespace Certman

/-! ## The world -/

/-- The files under the data directory, by their lexical path. -/
abbrev FileStore := Path → Option String

/-- What the commands did, in order. -/
inductive Event
  /-- One run of certbot, with its argv. -/
  | certbot (cmd : List String)
  /-- One `shutil.copy2(src, dst)` of `export_entry`. -/
  | copy (src dst : Path)
deriving DecidableEq, Repr

/-- The machine as the commands see it. -/
structure World where
  files : FileStore
  events : List Event

/-- The exceptions a command ends with. -/
inductive CliError
  /-- `typer.BadParameter`. -/
  | badParameter (msg : String)
  /-- `typer.Exit(code)`. -/
  | exit (code : Nat)
  /-- A `ValueError` of the credential resolver. -/
  | credential (err : CredentialError)
  /-- `shutil.SameFileError`. -/
  | sameFile (path : Path)
deriving DecidableEq, Repr

/-- A command: from the world, its result or its exception, and the world after it. -/
def Cmd (α : Type) := World → Except CliError α × World

instance : Monad Cmd where
  pure a w := (.ok a, w)
  bind x f w := match x w with
    | (.ok a, w') => f a w'
    | (.error e, w') => (.error e, w')

/-- `raise`. -/
def raise {α : Type} (e : CliError) : Cmd α := fun w => (.error e, w)

/-- The current world. -/
def getWorld : Cmd World := fun w => (.ok w, w)

@[simp] theorem pure_apply {α : Type} (a : α) (w : World) : (pure a : Cmd α) w = (.ok a, w) := rfl

@[simp] theorem bind_apply {α β : Type} (x : Cmd α) (f : α → Cmd β) (w : World) :
    (x >>= f) w = match x w with
      | (.ok a, w') => f a w'
      | (.error e, w') => (.error e, w') := rfl

@[simp] theorem raise_apply {α : Type} (e : CliError) (w : World) :
    (raise e : Cmd α) w = (.error e, w) := rfl

@[simp] theorem getWorld_apply (w : World) : getWorld w = (.ok w, w) := rfl

/-- A parameter of a typer command as its body sees it: the caller's value, or the
`typer.Option(default, ...)` object a direct call leaves in place of an omitted one. -/
inductive Param (α : Type)
  | val (a : α)
  | optionInfo (default : α)

/-- Python truthiness of a `bool` parameter: an `OptionInfo` object is truthy. -/
def Param.truthy : Param Bool → Bool
  | .val b => b
  | .optionInfo _ => true

/-! ## certbot -/

/-- What certbot does for an argv: its exit code, stdout and stderr, and the files it leaves. -/
abbrev Certbot := List String → FileStore → (Int × String × String) × FileStore

/-- `CertbotPaths`. -/
structure CertbotPaths where
  configDir : Path
  workDir : Path
  logsDir : Path

/-- `CertbotResult`. -/
structure CertbotResult where
  cmd : List String
  returncode : Int
  stdout : String
  stderr : String

/-- `CertbotResult.ok`. -/
def CertbotResult.ok (r : CertbotResult) : Bool := r.returncode == 0

/-- `CertbotResult.is_admin_required_error`. -/
def CertbotResult.isAdminRequiredError (r : CertbotResult) : Bool :=
  let msg := (lower r.stderr).toList
  decide ("administrative rights".toList <:+: msg) || decide ("administrator".toList <:+: msg)

/-- The argv `run_certbot` runs. -/
def certbotCmd (args : List String) (paths : CertbotPaths) : List String :=
  "certbot" :: args ++ ["--config-dir", paths.configDir.toStr, "--work-dir", paths.workDir.toStr,
    "--logs-dir", paths.logsDir.toStr, "--non-interactive"]

/-- `run_certbot`: with `passthrough` the output goes to the terminal and the result holds none. -/
def runCertbot (certbot : Certbot) (args : List String) (paths : CertbotPaths)
    (passthrough : Bool) : Cmd CertbotResult := fun w =>
  let cmd := certbotCmd args paths
  let proc := certbot cmd w.files
  (.ok (if passthrough then ⟨cmd, proc.1.1, "", ""⟩ else ⟨cmd, proc.1.1, proc.1.2.1, proc.1.2.2⟩),
    ⟨proc.2, w.events ++ [.certbot cmd]⟩)

/-- The exit a failed certbot run ends its command with. -/
def failedCertbot (result : CertbotResult) : Cmd Unit :=
  if result.ok then pure () else raise (.exit (if result.isAdminRequiredError then 2 else 1))

/-- A certbot run that exits with `0` passes `failedCertbot`, having recorded its argv. -/
theorem runCertbot_failedCertbot {β : Type} (certbot : Certbot) (args : List String)
    (paths : CertbotPaths) (passthrough : Bool) (k : Unit → Cmd β) (w : World)
    (h : (certbot (certbotCmd args paths) w.files).1.1 = 0) :
    (runCertbot certbot args paths passthrough >>= fun r => failedCertbot r >>= k) w =
      k () ⟨(certbot (certbotCmd args paths) w.files).2, w.events ++ [.certbot (certbotCmd args paths)]⟩ := by
  cases passthrough <;> simp [runCertbot, failedCertbot, CertbotResult.ok, h]

/-! ## Helpers shared by the commands -/

/-- `runtime.paths.run_dir / runtime.config.global_.letsencrypt_dir`. -/
def letsencryptDir (rt : Runtime) : Path := rt.paths.runDir.div rt.config.global_.letsencryptDir

/-- The `CertbotPaths` of `new` and `renew`. -/
def certbotPaths (rt : Runtime) : CertbotPaths :=
  ⟨letsencryptDir rt, rt.paths.runDir.div "work", rt.paths.logDir⟩

/-- The certbot lineage of an entry: `live/<primary_domain>`. -/
def liveDir (rt : Runtime) (entry : EntryConfig) : Path :=
  ((letsencryptDir rt).div "live").div entry.primaryDomain

/-- The export directory of an entry: `output/<name>`. -/
def outDir (rt : Runtime) (entry : EntryConfig) : Path := rt.paths.outputDir.div entry.name

/-- The entries named `name`, in order. -/
def named (rt : Runtime) (name : String) : List EntryConfig :=
  rt.config.entries.filter (·.name == name)

@[simp] theorem mem_named {rt : Runtime} {name : String} {e : EntryConfig} :
    e ∈ named rt name ↔ e ∈ rt.config.entries ∧ e.name = name := by
  simp [named]

/-- The file `_prepare_aliyun_credentials_ini` writes for an entry. -/
def credentialFile (rt : Runtime) (entry : EntryConfig) : Path :=
  (rt.paths.runDir.div "credentials").div
    ("aliyun_" ++ (if entry.account != "" then entry.account else entry.name) ++ ".ini")

/-- `_prepare_aliyun_credentials_ini`. -/
def prepareAliyunCredentialsIni (rt : Runtime) (entry : EntryConfig) : Cmd Path := fun w =>
  match aliyunCredentialsForEntry rt.env entry with
  | .error err => (.error (.credential err), w)
  | .ok creds =>
    let file := credentialFile rt entry
    (.ok file, ⟨Function.update w.files file (some (aliyunCredentialsIni creds)), w.events⟩)

theorem prepareAliyunCredentialsIni_ok {rt : Runtime} {e : EntryConfig} {creds : AliyunCredentials}
    (h : aliyunCredentialsForEntry rt.env e = .ok creds) (w : World) :
    prepareAliyunCredentialsIni rt e w = (.ok (credentialFile rt e),
      ⟨Function.update w.files (credentialFile rt e) (some (aliyunCredentialsIni creds)), w.events⟩) := by
  simp [prepareAliyunCredentialsIni, h]

/-! ## `export` -/

/-- `_EXPORT_FILES`. -/
def exportFiles : List String := ["cert.pem", "chain.pem", "fullchain.pem", "privkey.pem"]

/-- One turn of the loop of `export_entry`. -/
def copyOne (liveDir outDir : Path) (overwrite : Bool) (name : String) : Cmd (List Path) := fun w =>
  let src := liveDir.div name
  let dst := outDir.div name
  if (w.files src).isNone then (.ok [], w)
  else if (w.files dst).isSome && !overwrite then (.ok [], w)
  else if src = dst then (.error (.sameFile src), w)
  else (.ok [dst], ⟨Function.update w.files dst (w.files src), w.events ++ [.copy src dst]⟩)

/-- The loop of `export_entry` over the given file names. -/
def copyEach (liveDir outDir : Path) (overwrite : Bool) : List String → Cmd (List Path)
  | [] => pure []
  | name :: names => do
    let copied ← copyOne liveDir outDir overwrite name
    let rest ← copyEach liveDir outDir overwrite names
    pure (copied ++ rest)

/-- `export_entry`. -/
def exportEntry (liveDir outDir : Path) (overwrite : Bool) : Cmd (List Path) :=
  copyEach liveDir outDir overwrite exportFiles

/-- The loop of `export` over its targets. -/
def exportEach (rt : Runtime) (overwrite : Bool) : List EntryConfig → Cmd Unit
  | [] => pure ()
  | entry :: entries => do
    let _ ← exportEntry (liveDir rt entry) (outDir rt entry) overwrite
    exportEach rt overwrite entries

/-- `export`. -/
def «export» (rt : Runtime) (all : Bool) (name : Option String) (overwrite : Bool) : Cmd Unit :=
  if !all && !truthy name then raise (.badParameter "must provide --all or --name")
  else if truthy name then
    match named rt (name.getD "") with
    | [] => raise (.badParameter ("entry not found: " ++ name.getD ""))
    | targets => exportEach rt overwrite targets
  else exportEach rt overwrite rt.config.entries

/-! ## `new` -/

/-- The certbot arguments of `new`. -/
def newArgs (rt : Runtime) (credFile : Path) (force : Bool) (domains : List String) : List String :=
  ["certonly", "--authenticator", "dns-aliyun", "--dns-aliyun-credentials", credFile.toStr,
    "--agree-tos", "--email", rt.config.global_.email] ++
  (if rt.config.global_.acmeServer = "staging" then ["--test-cert"] else []) ++
  (if force then ["--force-renewal"] else []) ++
  domains.flatMap fun d => ["-d", d]

/-- `new`. -/
def new (certbot : Certbot) (rt : Runtime) (name : String) (force export_ : Bool)
    (verbose : Param Bool) : Cmd Unit :=
  match named rt name with
  | [] => raise (.badParameter ("entry not found: " ++ name))
  | entry :: _ =>
    if lower entry.dnsProvider != "aliyun" then
      raise (.badParameter ("unsupported dns_provider for now: " ++ entry.dnsProvider))
    else do
      let credFile ← prepareAliyunCredentialsIni rt entry
      let result ← runCertbot certbot (newArgs rt credFile force (entryDomains entry))
        (certbotPaths rt) verbose.truthy
      failedCertbot result
      if export_ then «export» rt false (some name) true

/-! ## `renew` -/

/-- The `for entry in runtime.config.entries` loop of `renew --all`. -/
def prepareAll (rt : Runtime) : List EntryConfig → Cmd Unit
  | [] => pure ()
  | entry :: entries => do
    let _ ← prepareAliyunCredentialsIni rt entry
    prepareAll rt entries

/-- The `--cert-name` part of `renew --name`, after preparing the first match's credentials. -/
def renewTarget (rt : Runtime) (name : String) : Cmd (List String) :=
  match named rt name with
  | [] => raise (.badParameter ("entry not found: " ++ name))
  | target :: _ => do
    let _ ← prepareAliyunCredentialsIni rt target
    pure ["--cert-name", target.primaryDomain]

/-- `renew`. -/
def renew (certbot : Certbot) (rt : Runtime) (all : Bool) (name : Option String) (force : Bool)
    (dryRun : Param Bool) (export_ : Bool) (verbose : Param Bool) : Cmd Unit :=
  if !all && !truthy name then raise (.badParameter "must provide --all or --name")
  else do
    if all then prepareAll rt rt.config.entries
    let certName ← if truthy name && !all then renewTarget rt (name.getD "") else pure []
    let args := ["renew"] ++ certName ++ (if force then ["--force-renewal"] else []) ++
      (if dryRun.truthy then ["--dry-run"] else [])
    let result ← runCertbot certbot args (certbotPaths rt) verbose.truthy
    failedCertbot result
    if export_ && !dryRun.truthy then
      if truthy name && !all then «export» rt false name true else «export» rt true none true

end Certman
