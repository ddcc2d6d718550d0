import Certman.Check
import Certman.Export

/-!
# `check --fix`

`check --fix` plans `new` for each missing certificate and `renew` for each one due, and runs
them by calling the two typer commands as Python functions. A parameter such a call omits keeps
its `typer.Option(...)` object, which is truthy. `new` is called with all it reads but `verbose`,
and issues a forced certificate for the entry's domains, then exports the entry's name. `renew` is
called without `dry_run` too: every renewal that `check --fix` runs carries `--dry-run`, which
saves nothing, and is followed by no export.

`check_fix_run` says what the run records, result by result (`FixSegment`), once certbot
succeeds and every entry can be acted on (`Fixable`); the steps are `new_fix`, `renew_fix` and
`export_neverRaises`, and the loop over the actions is `runFix_planFix`. The export after a
`certonly` records exactly the copies an export of the name makes from the files certbot left,
which needs that an export reads only the files (`export_ignoresEvents`).
-/

namespace Certman

/-! ## Steps that never raise -/

/-- A step that ends without an exception from every world. -/
def NeverRaises {α : Type} (c : Cmd α) : Prop := ∀ w, ∃ a, (c w).1 = .ok a

theorem NeverRaises.pure {α : Type} (a : α) : NeverRaises (pure a : Cmd α) := fun _ => ⟨a, rfl⟩

theorem NeverRaises.bind {α β : Type} {x : Cmd α} {f : α → Cmd β} (hx : NeverRaises x)
    (hf : ∀ a, NeverRaises (f a)) : NeverRaises (x >>= f) := by
  intro w
  obtain ⟨a, ha⟩ := hx w
  rcases hxw : x w with ⟨_ | a', w'⟩
  · rw [hxw] at ha; cases ha
  · simp only [bind_apply, hxw]; exact hf a' w'

theorem NeverRaises.stepProp : StepProp NeverRaises := ⟨NeverRaises.pure, NeverRaises.bind⟩

theorem copyOne_neverRaises {live out : Path} {overwrite : Bool} {f : String}
    (h : live.div f ≠ out.div f) : NeverRaises (copyOne live out overwrite f) := by
  intro w
  simp only [copyOne]
  split_ifs <;> simp_all

theorem copyEach_neverRaises {live out : Path} {overwrite : Bool} {names : List String}
    (h : ∀ f ∈ names, live.div f ≠ out.div f) : NeverRaises (copyEach live out overwrite names) :=
  NeverRaises.stepProp.copyEach fun f hf => copyOne_neverRaises (h f hf)

theorem exportEach_neverRaises {rt : Runtime} {overwrite : Bool} {targets : List EntryConfig}
    (h : ∀ e ∈ targets, ∀ f ∈ exportFiles, (liveDir rt e).div f ≠ (outDir rt e).div f) :
    NeverRaises (exportEach rt overwrite targets) :=
  NeverRaises.stepProp.exportEach fun e he f hf => copyOne_neverRaises (h e he f hf)

/-- `export --name n` raises nothing once some entry has the name `n ≠ ""` and no file of theirs is
its own copy. -/
theorem export_neverRaises {rt : Runtime} {n : String} {e : EntryConfig} {es : List EntryConfig}
    (hne : n ≠ "") (hn : named rt n = e :: es)
    (h : ∀ e ∈ named rt n, ∀ f ∈ exportFiles, (liveDir rt e).div f ≠ (outDir rt e).div f) :
    NeverRaises («export» rt false (some n) true) := by
  have ht : truthy (some n) = true := by simpa using hne
  simp only [«export», ht, Option.getD_some, hn, Bool.not_false, Bool.not_true, Bool.and_false,
    Bool.false_eq_true, if_false, if_true]
  rw [hn] at h
  exact exportEach_neverRaises h

/-! ## Steps that do not read the events -/

/-- A step that does not read the events recorded before it: run after any events, it ends the
same way, leaves the same files and records the same events after them. -/
def IgnoresEvents {α : Type} (c : Cmd α) : Prop :=
  ∀ files evs, c ⟨files, evs⟩ =
    ((c ⟨files, []⟩).1, ⟨(c ⟨files, []⟩).2.files, evs ++ (c ⟨files, []⟩).2.events⟩)

theorem IgnoresEvents.stepProp : StepProp IgnoresEvents := by
  refine ⟨fun _ _ _ => by simp, fun {α β x f} hx hf files evs => ?_⟩
  rw [bind_apply, bind_apply, hx files evs]
  rcases x ⟨files, []⟩ with ⟨_ | a, ⟨files₁, evs₁⟩⟩
  · rfl
  · simp only [hf a files₁ (evs ++ evs₁), hf a files₁ evs₁, List.append_assoc]

theorem copyOne_ignoresEvents (live out : Path) (overwrite : Bool) (f : String) :
    IgnoresEvents (copyOne live out overwrite f) := fun files evs => by
  simp only [copyOne]
  split_ifs <;> simp

/-- An export run records its copies after whatever came before, and reads only the files. -/
theorem export_ignoresEvents (rt : Runtime) (all : Bool) (name : Option String) (overwrite : Bool) :
    IgnoresEvents («export» rt all name overwrite) := by
  rcases export_cases rt all name overwrite with ⟨err, he⟩ | he <;> rw [he]
  · exact fun _ _ => by simp
  · exact IgnoresEvents.stepProp.exportEach fun _ _ _ _ => copyOne_ignoresEvents _ _ _ _

/-! ## The entries `check --fix` can act on -/

/-- Certbot exits with `0` for every argv. -/
def CertbotSucceeds (certbot : Certbot) : Prop := ∀ cmd files, (certbot cmd files).1.1 = 0

/-- An entry `new` and `renew` can act on: an aliyun entry with a name, whose credentials
resolve, and whose export never copies a file onto itself. -/
structure Fixable (rt : Runtime) (e : EntryConfig) : Prop where
  aliyun : lower e.dnsProvider = "aliyun"
  named : e.name ≠ ""
  resolves : (aliyunCredentialsForEntry rt.env e).isOk = true
  distinct : ∀ f ∈ exportFiles, (liveDir rt e).div f ≠ (outDir rt e).div f

theorem Fixable.creds {rt : Runtime} {e : EntryConfig} (h : Fixable rt e) :
    ∃ creds, aliyunCredentialsForEntry rt.env e = .ok creds := by
  have := h.resolves
  revert this
  cases aliyunCredentialsForEntry rt.env e <;> simp [Except.isOk, Except.toBool]

section Steps

variable {certbot : Certbot} {rt : Runtime} {n : String} {e : EntryConfig} {es : List EntryConfig}

/-- `new --name n --force --export`, as `check --fix` calls it: one forced `certonly` for the
first entry of the name, then the copies an export of the name makes from the files certbot left. -/
theorem new_fix (hc : CertbotSucceeds certbot) (hfix : ∀ e ∈ rt.config.entries, Fixable rt e)
    (hn : named rt n = e :: es) (hne : n ≠ "") (w : World) :
    ∃ files w', new certbot rt n true true (.optionInfo false) w = (.ok (), w') ∧
      w'.events = w.events ++ .certbot (certbotCmd (newArgs rt (credentialFile rt e) true (entryDomains e))
        (certbotPaths rt)) :: («export» rt false (some n) true ⟨files, []⟩).2.events := by
  have he := hfix e (mem_named.mp (hn ▸ List.mem_cons_self e es)).1
  obtain ⟨creds, hcr⟩ := he.creds
  let cmd := certbotCmd (newArgs rt (credentialFile rt e) true (entryDomains e)) (certbotPaths rt)
  let files := Function.update w.files (credentialFile rt e) (some (aliyunCredentialsIni creds))
  let w₁ : World := ⟨(certbot cmd files).2, w.events ++ [.certbot cmd]⟩
  have hnew : new certbot rt n true true (.optionInfo false) w = «export» rt false (some n) true w₁ := by
    simp only [new, hn, he.aliyun, bne_self_eq_false, Bool.false_eq_true, if_false, bind_apply,
      prepareAliyunCredentialsIni_ok hcr]
    exact runCertbot_failedCertbot _ _ _ _ (fun _ => if true then «export» rt false (some n) true else pure ())
      _ (hc _ _)
  obtain ⟨⟨⟩, hok⟩ := export_neverRaises hne hn (fun e' h' => (hfix e' (mem_named.mp h').1).distinct)
    ⟨w₁.files, []⟩
  refine ⟨w₁.files, _, hnew.trans ((export_ignoresEvents rt false (some n) true w₁.files w₁.events).trans
    (Prod.ext hok rfl)), ?_⟩
  simp [w₁]

/-- `renew --name n --force`, as `check --fix` calls it: `dry_run` is a truthy `OptionInfo`, so the
one certbot run is a dry run of the first entry's lineage, and nothing is exported. -/
theorem renew_fix (hc : CertbotSucceeds certbot) (hn : named rt n = e :: es) (hne : n ≠ "")
    (he : Fixable rt e) (w : World) :
    ∃ files, renew certbot rt false (some n) true (.optionInfo false) true (.optionInfo false) w =
      (.ok (), ⟨files, w.events ++ [.certbot (certbotCmd
        ["renew", "--cert-name", e.primaryDomain, "--force-renewal", "--dry-run"] (certbotPaths rt))]⟩) := by
  obtain ⟨creds, hcr⟩ := he.creds
  have ht : truthy (some n) = true := by simpa using hne
  let cmd := certbotCmd ["renew", "--cert-name", e.primaryDomain, "--force-renewal", "--dry-run"]
    (certbotPaths rt)
  let files := Function.update w.files (credentialFile rt e) (some (aliyunCredentialsIni creds))
  refine ⟨(certbot cmd files).2, ?_⟩
  simp only [renew, ht, renewTarget, Option.getD_some, hn, bind_apply, prepareAliyunCredentialsIni_ok hcr,
    Param.truthy, Bool.not_false, Bool.not_true, Bool.and_true, Bool.true_and, Bool.and_false,
    Bool.false_eq_true, if_true, if_false, List.cons_append, List.nil_append]
  exact (runCertbot_failedCertbot _ _ _ _ _ _ (hc _ _)).trans rfl

end Steps

/-! ## The fix loop -/

/-- What `check --fix` records for one result when every action succeeds. -/
inductive FixSegment (rt : Runtime) : CheckResult → List Event → Prop
  /-- A missing certificate: one forced `certonly` for the first entry of the name, then the
  copies an export of the name makes from the files certbot left. -/
  | missing {r : CheckResult} {e : EntryConfig} {es : List EntryConfig} {files : FileStore}
      (hs : r.status = .missing) (hn : named rt r.entry = e :: es) :
      FixSegment rt r (.certbot (certbotCmd (newArgs rt (credentialFile rt e) true (entryDomains e))
        (certbotPaths rt)) :: («export» rt false (some r.entry) true ⟨files, []⟩).2.events)
  /-- A certificate due for renewal: one dry run of the first entry's lineage, and nothing else. -/
  | forceRenew {r : CheckResult} {e : EntryConfig} {es : List EntryConfig}
      (hs : r.status = .forceRenew) (hn : named rt r.entry = e :: es) :
      FixSegment rt r [.certbot (certbotCmd
        ["renew", "--cert-name", e.primaryDomain, "--force-renewal", "--dry-run"] (certbotPaths rt))]
  /-- Nothing for a certificate that is fine or only near expiry. -/
  | quiet {r : CheckResult} (hs : r.status = .warn ∨ r.status = .ok) : FixSegment rt r []

theorem planFix_append (xs ys : List CheckResult) : planFix (xs ++ ys) = planFix xs ++ planFix ys :=
  List.filterMap_append _ _ _

theorem runFix_append (certbot : Certbot) (rt : Runtime) (bs : List FixAction) :
    ∀ (as : List FixAction) (w : World), runFix certbot rt (as ++ bs) w =
      match runFix certbot rt as w with
      | (.ok _, w') => runFix certbot rt bs w'
      | (.error e, w') => (.error e, w')
  | [], w => rfl
  | a :: as, w => by
    rcases h : fixAction certbot rt a w with ⟨_ | _, w'⟩
    · simp only [List.cons_append, runFix, bind_apply, h]
    · simp only [List.cons_append, runFix, bind_apply, h]
      exact runFix_append certbot rt bs as w'

theorem named_cons_of_mem {rt : Runtime} {n : String} {e₀ : EntryConfig}
    (h : e₀ ∈ rt.config.entries) (hname : e₀.name = n) :
    ∃ e es, named rt n = e :: es ∧ e ∈ rt.config.entries := by
  cases hn : named rt n with
  | nil => exact absurd (hn ▸ mem_named.mpr ⟨h, hname⟩) (List.not_mem_nil _)
  | cons e es => exact ⟨e, es, rfl, (mem_named.mp (hn ▸ List.mem_cons_self e es)).1⟩

section Loop

variable {certbot : Certbot} {rt : Runtime}

/-- The action planned for one result runs to its end and records that result's segment. -/
theorem runFix_planFix_one (hc : CertbotSucceeds certbot)
    (hfix : ∀ e ∈ rt.config.entries, Fixable rt e) (r : CheckResult)
    (hr : ∃ e ∈ rt.config.entries, e.name = r.entry) (w : World) :
    ∃ seg w', runFix certbot rt (planFix [r]) w = (.ok (), w') ∧
      w'.events = w.events ++ seg ∧ FixSegment rt r seg := by
  obtain ⟨e₀, he₀, hname⟩ := hr
  obtain ⟨e, es, hn, he⟩ := named_cons_of_mem he₀ hname
  have hne : r.entry ≠ "" := hname ▸ (hfix e₀ he₀).named
  cases hs : r.status with
  | missing =>
    obtain ⟨files, w', hnew, hevs⟩ := new_fix hc hfix hn hne w
    refine ⟨_, w', ?_, hevs, .missing hs hn⟩
    simp only [planFix, List.filterMap_cons, hs, List.filterMap_nil, runFix, bind_apply, fixAction,
      if_true, hnew]
    rfl
  | forceRenew =>
    obtain ⟨files, hrenew⟩ := renew_fix hc hn hne (hfix e he) w
    refine ⟨_, ⟨files, w.events ++ _⟩, ?_, rfl, .forceRenew hs hn⟩
    simp only [planFix, List.filterMap_cons, hs, List.filterMap_nil, runFix, bind_apply, fixAction]
    rw [if_pos trivial, if_neg (show "renew" ≠ "new" by decide), hrenew]
    rfl
  | warn => exact ⟨[], w, by simp [planFix, hs, runFix], by simp, .quiet (.inl hs)⟩
  | ok => exact ⟨[], w, by simp [planFix, hs, runFix], by simp, .quiet (.inr hs)⟩

/-- The fix loop over the plan of some results runs every action to its end and records one
segment per result, in order. -/
theorem runFix_planFix (hc : CertbotSucceeds certbot) (hfix : ∀ e ∈ rt.config.entries, Fixable rt e) :
    ∀ (results : List CheckResult), (∀ r ∈ results, ∃ e ∈ rt.config.entries, e.name = r.entry) →
      ∀ w, ∃ segs w', runFix certbot rt (planFix results) w = (.ok (), w') ∧
        w'.events = w.events ++ segs.flatten ∧ List.Forall₂ (FixSegment rt) results segs
  | [], _, w => ⟨[], w, rfl, by simp, .nil⟩
  | r :: rs, hr, w => by
    obtain ⟨seg, w₁, h₁, he₁, hs₁⟩ := runFix_planFix_one hc hfix r (hr r (List.mem_cons_self _ _)) w
    obtain ⟨segs, w', h', he', hs'⟩ :=
      runFix_planFix hc hfix rs (fun r' h => hr r' (List.mem_cons_of_mem _ h)) w₁
    refine ⟨seg :: segs, w', ?_, by simp [he', he₁], .cons hs₁ hs'⟩
    rw [← List.singleton_append, planFix_append, runFix_append, h₁]
    exact h'

end Loop

/-! ## `check --fix` -/

/-- `check --fix`, once certbot succeeds and every entry can be acted on: after the targets are
classified, the run records one segment per result, in order, and exits with the
classification's code. -/
theorem check_fix_run (certbot : Certbot) (readCert : String → CertStatus) (rt : Runtime)
    (warnDays forceRenewDays : Int) (name : Option String) (w : World) (targets : List EntryConfig)
    (hc : CertbotSucceeds certbot) (hfix : ∀ e ∈ rt.config.entries, Fixable rt e)
    (ht : checkTargets rt name = some targets) :
    let run := checkLoop rt readCert w.files warnDays forceRenewDays targets [] 0
    ∃ segs w', check certbot readCert rt warnDays forceRenewDays name true w = (.error (.exit run.2), w') ∧
      w'.events = w.events ++ segs.flatten ∧ List.Forall₂ (FixSegment rt) run.1 segs := by
  intro run
  have hr : ∀ r ∈ run.1, ∃ e ∈ rt.config.entries, e.name = r.entry := by
    simp only [run, checkLoop_results, List.mem_map]
    rintro r ⟨e, he, rfl⟩
    exact ⟨e, checkTargets_subset ht e he, by simp [checkEntry]⟩
  obtain ⟨segs, w', hrun, hevs, hsegs⟩ := runFix_planFix hc hfix run.1 hr w
  refine ⟨segs, w', ?_, hevs, hsegs⟩
  rw [check_eq certbot readCert rt warnDays forceRenewDays name true w targets ht]
  simp only [if_true, bind_apply, hrun]
  rfl

/-- A cloudflare entry without a certificate: `check --fix` plans `new`, which rejects the
provider, so the run ends with that error and no certbot run. -/
example :
    let e : EntryConfig := { name := "c", primaryDomain := "c.test", dnsProvider := "cloudflare" }
    let rt : Runtime := ⟨runtimePaths "data" ⟨{}, [e]⟩, ⟨{}, [e]⟩, fun _ => none⟩
    let certbot : Certbot := fun _ files => ((0, "", ""), files)
    let after := check certbot (fun _ => ⟨"2026-11-12T00:00:00+00:00", 3⟩) rt 30 7 none true
      ⟨fun _ => none, []⟩
    after.1 = .error (.badParameter "unsupported dns_provider for now: cloudflare") ∧
      after.2.events = [] :=
  ⟨rfl, rfl⟩

/-- Every renewal `check --fix` runs is a dry run and is followed by no export: for a certificate
due for renewal the run records exactly one `renew ... --dry-run` of the first entry's lineage. -/
theorem check_fix_renewals_are_dry_runs (certbot : Certbot) (readCert : String → CertStatus)
    (rt : Runtime) (warnDays forceRenewDays : Int) (name : Option String) (w : World)
    (targets : List EntryConfig) (hc : CertbotSucceeds certbot)
    (hfix : ∀ e ∈ rt.config.entries, Fixable rt e) (ht : checkTargets rt name = some targets) :
    let run := checkLoop rt readCert w.files warnDays forceRenewDays targets [] 0
    ∃ segs, (check certbot readCert rt warnDays forceRenewDays name true w).2.events =
        w.events ++ segs.flatten ∧
      List.Forall₂ (fun r seg => r.status = .forceRenew → ∃ e ∈ named rt r.entry,
        seg = [.certbot (certbotCmd ["renew", "--cert-name", e.primaryDomain, "--force-renewal",
          "--dry-run"] (certbotPaths rt))]) run.1 segs := by
  obtain ⟨segs, w', hcheck, hevs, hsegs⟩ :=
    check_fix_run certbot readCert rt warnDays forceRenewDays name w targets hc hfix ht
  refine ⟨segs, by rw [hcheck, hevs], hsegs.imp fun r seg h hs => ?_⟩
  cases h with
  | missing hs' => exact absurd (hs'.symm.trans hs) (by decide)
  | forceRenew _ hn => exact ⟨_, hn ▸ List.mem_cons_self _ _, rfl⟩
  | quiet hs' => rcases hs' with h | h <;> exact absurd (h.symm.trans hs) (by decide)

/-- One aliyun entry whose certificate has 3 days left, under the default thresholds. -/
theorem check_fix_renewal_of_one_entry :
    let a : EntryConfig := { name := "a", primaryDomain := "a.test", dnsProvider := "aliyun"
                             credentials := { accessKeyId := some "id"
                                              accessKeySecret := some "secret" } }
    let rt : Runtime := ⟨runtimePaths "data" ⟨{}, [a]⟩, ⟨{}, [a]⟩, fun _ => none⟩
    let certbot : Certbot := fun _ files => ((0, "", ""), files)
    let w : World := ⟨fun _ => some "cert", []⟩
    let readCert : String → CertStatus := fun _ => ⟨"2026-11-12T00:00:00+00:00", 3⟩
    let run := checkLoop rt readCert w.files 30 7 [a] [] 0
    ∃ segs, (check certbot readCert rt 30 7 none true w).2.events = w.events ++ segs.flatten ∧
      List.Forall₂ (fun r seg => r.status = .forceRenew → ∃ e ∈ named rt r.entry,
        seg = [.certbot (certbotCmd ["renew", "--cert-name", e.primaryDomain, "--force-renewal",
          "--dry-run"] (certbotPaths rt))]) run.1 segs := by
  intro a rt certbot w readCert
  refine check_fix_renewals_are_dry_runs certbot readCert rt 30 7 none w [a] (fun _ _ => rfl)
    (fun e he => ?_) rfl
  rw [List.mem_singleton.mp he]
  exact ⟨by decide, by decide, rfl, by decide⟩

/-- One aliyun entry whose certificate has 3 days left, under the default thresholds: `check --fix`
asks certbot only for a dry run of the renewal and exports nothing, so `output/a/cert.pem` stays
absent although the lineage holds a certificate. -/
theorem check_fix_renewal_is_dry_run_without_export :
    let a : EntryConfig := { name := "a", primaryDomain := "a.test", dnsProvider := "aliyun"
                             credentials := { accessKeyId := some "id"
                                              accessKeySecret := some "secret" } }
    let rt : Runtime := ⟨runtimePaths "data" ⟨{}, [a]⟩, ⟨{}, [a]⟩, fun _ => none⟩
    let certbot : Certbot := fun _ files => ((0, "", ""), files)
    let w : World := ⟨fun p => if p = (liveDir rt a).div "cert.pem" then some "cert" else none, []⟩
    let run := check certbot (fun _ => ⟨"2026-11-12T00:00:00+00:00", 3⟩) rt 30 7 none true w
    run.1 = .error (.exit 20) ∧
      run.2.events = [.certbot (certbotCmd ["renew", "--cert-name", "a.test", "--force-renewal",
        "--dry-run"] (certbotPaths rt))] ∧
      (w.files ((liveDir rt a).div "cert.pem")).isSome ∧ run.2.files ((outDir rt a).div "cert.pem") = none :=
  ⟨rfl, rfl, rfl, rfl⟩

end Certman
