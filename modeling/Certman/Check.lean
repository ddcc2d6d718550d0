import Certman.Cli

/-!
# `check`: classification and exit code

`check` looks at `live/<primary_domain>/cert.pem` of each target in order: without the file the
entry is `missing`, otherwise its `days_left` is compared with `--force-renew-days` and then with
`--warn-days`. The loop keeps the worst code seen, and the command always ends with
`typer.Exit(worst_code)`; with `--fix` it first runs `new` or `renew` for the entries that are
missing or due (`planFix`, `runFix`, the subject of the next module).

The loop is a fold with a running maximum (`checkLoop_eq`). `check_classifies` gives one result
per target with the status the thresholds call for, and the exit code as the largest weight
among the results; so the code does not depend on the order of the targets, and only grows as
certificates age or disappear.

Not modelled: how the certificate's `notAfter` is read, which is a parameter `readCert` from the
file's text to its `CertStatus` with `days_left` as of the run; the JSON log; the printed lines.
-/

namespace Certman

/-! ## One entry -/

/-- `CertStatus`, with `days_left` as of the run. -/
structure CertStatus where
  notAfter : String
  daysLeft : Int
deriving DecidableEq, Repr

/-- The `status` of a result: `"missing"`, `"force-renew"`, `"warn"` or `"ok"`. -/
inductive Status
  | missing
  | forceRenew
  | warn
  | ok
deriving DecidableEq, Repr

/-- The exit code of each status, as the docstring of `check` lists them. -/
def Status.weight : Status → Nat
  | .missing => 30
  | .forceRenew => 20
  | .warn => 10
  | .ok => 0

/-- One dict of `results`: `days_left` and `not_after` only for a certificate that exists. -/
structure CheckResult where
  entry : String
  primaryDomain : String
  status : Status
  daysLeft : Option Int
  notAfter : Option String
  certPath : String
deriving DecidableEq, Repr

/-- The body of the loop of `check` for an entry whose certificate is at `certPath`, with the
certificate's status when the file exists: the result and its code. -/
def classify (warnDays forceRenewDays : Int) (entry : EntryConfig) (certPath : Path) :
    Option CertStatus → CheckResult × Nat
  | none => (⟨entry.name, entry.primaryDomain, .missing, none, none, certPath.toStr⟩, 30)
  | some status =>
    let daysLeft := status.daysLeft
    let (state, code) :=
      if daysLeft ≤ forceRenewDays then (Status.forceRenew, 20)
      else if daysLeft ≤ warnDays then (Status.warn, 10)
      else (Status.ok, 0)
    (⟨entry.name, entry.primaryDomain, state, some daysLeft, some status.notAfter, certPath.toStr⟩,
      code)

/-- The classification the docstring of `check` describes, for a certificate that is absent
(`none`) or has `days_left = d`. -/
def StatusSpec (warnDays forceRenewDays : Int) (s : Status) : Option Int → Prop
  | none => s = .missing
  | some d => (s = .forceRenew ↔ d ≤ forceRenewDays) ∧
      (s = .warn ↔ forceRenewDays < d ∧ d ≤ warnDays) ∧
      (s = .ok ↔ forceRenewDays < d ∧ warnDays < d)

/-- `c'` is a certificate state at least as bad as `c`: the file is gone, or has no more days left. -/
def Worsens : Option Int → Option Int → Prop
  | _, none => True
  | none, some _ => False
  | some d, some d' => d' ≤ d

section Classify

variable (warnDays forceRenewDays : Int) (entry : EntryConfig) (certPath : Path)
  (cert : Option CertStatus)

@[simp] theorem classify_entry :
    (classify warnDays forceRenewDays entry certPath cert).1.entry = entry.name := by
  cases cert <;> simp only [classify]

@[simp] theorem classify_primaryDomain :
    (classify warnDays forceRenewDays entry certPath cert).1.primaryDomain = entry.primaryDomain := by
  cases cert <;> simp only [classify]

@[simp] theorem classify_daysLeft :
    (classify warnDays forceRenewDays entry certPath cert).1.daysLeft = cert.map (·.daysLeft) := by
  cases cert <;> simp only [classify, Option.map_none', Option.map_some']

@[simp] theorem classify_certPath :
    (classify warnDays forceRenewDays entry certPath cert).1.certPath = certPath.toStr := by
  cases cert <;> simp only [classify]

/-- The code the loop takes for an entry is the weight of the status it records. -/
theorem classify_code :
    (classify warnDays forceRenewDays entry certPath cert).2 =
      (classify warnDays forceRenewDays entry certPath cert).1.status.weight := by
  cases cert with
  | none => rfl
  | some status => simp only [classify]; split_ifs <;> rfl

theorem classify_statusSpec :
    StatusSpec warnDays forceRenewDays (classify warnDays forceRenewDays entry certPath cert).1.status
      (cert.map (·.daysLeft)) := by
  cases cert with
  | none => rfl
  | some status =>
    simp only [classify, Option.map_some', StatusSpec]
    split_ifs <;> simp <;> omega

/-- A worse certificate never gets a lighter status. -/
theorem classify_weight_mono {entry' : EntryConfig} {certPath' : Path} {cert' : Option CertStatus}
    (h : Worsens (cert.map (·.daysLeft)) (cert'.map (·.daysLeft))) :
    (classify warnDays forceRenewDays entry certPath cert).1.status.weight ≤
      (classify warnDays forceRenewDays entry' certPath' cert').1.status.weight := by
  cases cert <;> cases cert' <;> simp only [classify, Worsens, Option.map_some', Option.map_none'] at h ⊢
  · exact le_rfl
  · split_ifs <;> simp [Status.weight]
  · split_ifs <;> simp [Status.weight] <;> omega

end Classify

/-! ## The loop -/

/-- The `cert.pem` `check` looks at for an entry. -/
def certPath (rt : Runtime) (entry : EntryConfig) : Path := (liveDir rt entry).div "cert.pem"

section Loop

variable (rt : Runtime) (readCert : String → CertStatus) (files : FileStore)
  (warnDays forceRenewDays : Int)

/-- What `check` finds for an entry: the status of its `cert.pem`, or `none` when it is absent. -/
def certState (entry : EntryConfig) : Option CertStatus := (files (certPath rt entry)).map readCert

/-- The result and code of one entry. -/
def checkEntry (entry : EntryConfig) : CheckResult × Nat :=
  classify warnDays forceRenewDays entry (certPath rt entry) (certState rt readCert files entry)

/-- The `for entry in targets` loop of `check`, from `results` and `worst_code`. -/
def checkLoop : List EntryConfig → List CheckResult → Nat → List CheckResult × Nat
  | [], results, worstCode => (results, worstCode)
  | entry :: entries, results, worstCode =>
    let r := checkEntry rt readCert files warnDays forceRenewDays entry
    checkLoop entries (results ++ [r.1]) (max worstCode r.2)

/-- The loop appends one result per target and ends with the largest code. -/
theorem checkLoop_eq : ∀ (targets : List EntryConfig) (results : List CheckResult) (worstCode : Nat),
    checkLoop rt readCert files warnDays forceRenewDays targets results worstCode =
      (results ++ targets.map (checkEntry rt readCert files warnDays forceRenewDays · |>.1),
        max worstCode ((targets.map (checkEntry rt readCert files warnDays forceRenewDays · |>.2)).foldr max 0))
  | [], results, worstCode => by simp [checkLoop]
  | entry :: entries, results, worstCode => by
    rw [checkLoop, checkLoop_eq entries]
    simp only [List.map_cons, List.foldr_cons, List.append_assoc, List.singleton_append]
    congr 1
    omega

theorem checkLoop_results (targets : List EntryConfig) :
    (checkLoop rt readCert files warnDays forceRenewDays targets [] 0).1 =
      targets.map (checkEntry rt readCert files warnDays forceRenewDays · |>.1) := by
  simp [checkLoop_eq]

/-- The code of the loop is the largest weight among the results, and `0` without targets. -/
theorem checkLoop_code (targets : List EntryConfig) :
    (checkLoop rt readCert files warnDays forceRenewDays targets [] 0).2 =
      (targets.map fun e => (checkEntry rt readCert files warnDays forceRenewDays e).1.status.weight).foldr
        max 0 := by
  simp [checkLoop_eq, checkEntry, classify_code]

/-- The code does not depend on the order of the targets. -/
theorem checkLoop_code_perm {targets targets' : List EntryConfig} (hp : targets.Perm targets') :
    (checkLoop rt readCert files warnDays forceRenewDays targets' [] 0).2 =
      (checkLoop rt readCert files warnDays forceRenewDays targets [] 0).2 := by
  simp only [checkLoop_code]
  exact ((hp.map _).foldr_eq' (fun x _ y _ z => max_left_comm y x z) 0).symm

end Loop

/-- The code only grows as the targets' certificates age or disappear. -/
theorem checkLoop_code_mono (rt : Runtime) (readCert readCert' : String → CertStatus)
    (files files' : FileStore) (warnDays forceRenewDays : Int) : ∀ targets : List EntryConfig,
    (∀ e ∈ targets, Worsens ((certState rt readCert files e).map (·.daysLeft))
      ((certState rt readCert' files' e).map (·.daysLeft))) →
    (checkLoop rt readCert files warnDays forceRenewDays targets [] 0).2 ≤
      (checkLoop rt readCert' files' warnDays forceRenewDays targets [] 0).2
  | [], _ => le_rfl
  | e :: es, hw => by
    have he : (checkEntry rt readCert files warnDays forceRenewDays e).1.status.weight ≤
        (checkEntry rt readCert' files' warnDays forceRenewDays e).1.status.weight :=
      classify_weight_mono _ _ _ _ _ (hw e (List.mem_cons_self _ _))
    have hes := checkLoop_code_mono rt readCert readCert' files files' warnDays forceRenewDays es
      fun e' he' => hw e' (List.mem_cons_of_mem _ he')
    simp only [checkLoop_code, List.map_cons, List.foldr_cons] at hes ⊢
    omega

/-! ## The command -/

/-- One planned entry of `fix_actions`. -/
structure FixAction where
  entry : String
  action : String
  force : Bool
  reason : String
deriving DecidableEq, Repr

/-- The `fix_actions` planned from the results: `new` for a missing certificate, `renew` for one
due for renewal. -/
def planFix (results : List CheckResult) : List FixAction :=
  results.filterMap fun r => match r.status with
    | .missing => some ⟨r.entry, "new", true, "missing"⟩
    | .forceRenew => some ⟨r.entry, "renew", true, "expires-soon"⟩
    | _ => none

/-- One planned action executed. `check` calls the typer commands directly and omits `verbose`,
and for `renew` also `dry_run`: both are left at their `typer.Option` objects. -/
def fixAction (certbot : Certbot) (rt : Runtime) (action : FixAction) : Cmd Unit :=
  if action.action = "new" then new certbot rt action.entry true true (.optionInfo false)
  else if action.action = "renew" then
    renew certbot rt false (some action.entry) true (.optionInfo false) true (.optionInfo false)
  else pure ()

/-- The loop executing the planned actions. -/
def runFix (certbot : Certbot) (rt : Runtime) : List FixAction → Cmd Unit
  | [] => pure ()
  | action :: actions => do
    fixAction certbot rt action
    runFix certbot rt actions

/-- The targets of `check`: the entries named `name`, or all of them; `none` when no entry has
the name. -/
def checkTargets (rt : Runtime) (name : Option String) : Option (List EntryConfig) :=
  if truthy name then
    match named rt (name.getD "") with
    | [] => none
    | targets => some targets
  else some rt.config.entries

theorem checkTargets_subset {rt : Runtime} {name : Option String} {targets : List EntryConfig}
    (h : checkTargets rt name = some targets) : ∀ e ∈ targets, e ∈ rt.config.entries := by
  unfold checkTargets at h
  split_ifs at h
  · split at h
    · cases h
    · cases h; exact fun e he => (mem_named.mp he).1
  · cases h; exact fun _ => id

/-- `check`. It always ends with an exception: `typer.Exit(worst_code)` when nothing else raised. -/
def check (certbot : Certbot) (readCert : String → CertStatus) (rt : Runtime)
    (warnDays forceRenewDays : Int) (name : Option String) (fix : Bool) : Cmd Unit :=
  match checkTargets rt name with
  | none => raise (.badParameter ("entry not found: " ++ name.getD ""))
  | some targets => do
    let w ← getWorld
    let (results, worstCode) := checkLoop rt readCert w.files warnDays forceRenewDays targets [] 0
    if fix then runFix certbot rt (planFix results)
    raise (.exit worstCode)

theorem check_eq (certbot : Certbot) (readCert : String → CertStatus) (rt : Runtime)
    (warnDays forceRenewDays : Int) (name : Option String) (fix : Bool) (w : World)
    (targets : List EntryConfig) (ht : checkTargets rt name = some targets) :
    check certbot readCert rt warnDays forceRenewDays name fix w =
      (let run := checkLoop rt readCert w.files warnDays forceRenewDays targets [] 0
       if fix then runFix certbot rt (planFix run.1) >>= fun _ => raise (.exit run.2)
       else raise (.exit run.2)) w := by
  simp only [check, ht, bind_apply, getWorld_apply]
  cases fix <;> rfl

/-- `check` gives one result per target, in order, with the status its docstring describes for
the `days_left` read from `live/<primary_domain>/cert.pem`, and exits with the largest weight among
them; that code is the same for every order of the targets, and does not drop when certificates age
or disappear. -/
theorem check_classifies (certbot : Certbot) (readCert : String → CertStatus) (rt : Runtime)
    (warnDays forceRenewDays : Int) (name : Option String) (w : World)
    (targets : List EntryConfig) :
    let pem (e : EntryConfig) : Path :=
      (((rt.paths.runDir.div rt.config.global_.letsencryptDir).div "live").div e.primaryDomain).div
        "cert.pem"
    let days (readCert : String → CertStatus) (files : FileStore) (e : EntryConfig) : Option Int :=
      (files (pem e)).map fun text => (readCert text).daysLeft
    let run := checkLoop rt readCert w.files warnDays forceRenewDays targets [] 0
    List.Forall₂ (fun r e => r.entry = e.name ∧ r.primaryDomain = e.primaryDomain ∧
        r.certPath = (pem e).toStr ∧ r.daysLeft = days readCert w.files e ∧
        StatusSpec warnDays forceRenewDays r.status (days readCert w.files e)) run.1 targets ∧
      run.2 = (run.1.map (·.status.weight)).foldr max 0 ∧
      (checkTargets rt name = some targets →
        check certbot readCert rt warnDays forceRenewDays name false w = (.error (.exit run.2), w)) ∧
      (∀ targets', targets.Perm targets' →
        (checkLoop rt readCert w.files warnDays forceRenewDays targets' [] 0).2 = run.2) ∧
      (∀ (readCert' : String → CertStatus) (files' : FileStore),
        (∀ e ∈ targets, Worsens (days readCert w.files e) (days readCert' files' e)) →
        run.2 ≤ (checkLoop rt readCert' files' warnDays forceRenewDays targets [] 0).2) := by
  intro pem days run
  have hdays : ∀ rc files e, days rc files e = (certState rt rc files e).map (·.daysLeft) :=
    fun _ _ _ => (Option.map_map _ _ _).symm
  refine ⟨?_, ?_, fun ht => ?_, fun targets' hp => ?_, fun readCert' files' hw => ?_⟩
  · rw [checkLoop_results, List.forall₂_map_left_iff]
    exact List.forall₂_same.mpr fun e _ => by
      simp only [checkEntry, classify_entry, classify_primaryDomain, classify_certPath,
        classify_daysLeft, hdays, true_and]
      exact ⟨rfl, classify_statusSpec ..⟩
  · rw [checkLoop_code, checkLoop_results, List.map_map]
    rfl
  · rw [check_eq certbot readCert rt warnDays forceRenewDays name false w targets ht]
    rfl
  · exact checkLoop_code_perm rt readCert w.files warnDays forceRenewDays hp
  · exact checkLoop_code_mono rt readCert readCert' w.files files' warnDays forceRenewDays targets
      fun e he => by simpa only [hdays] using hw e he

end Certman
