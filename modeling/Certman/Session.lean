import Certman.Fix

/-!
# Sessions

Each run of the CLI is one process: `_callback` builds the runtime, one command runs, and the
data directory stays as the command left it, whether it ended normally or raised. A session is
any sequence of runs of `new`, `renew`, `export` and `check` over one runtime, each with the
parameters its caller gives and with whatever certbot does at that time (`Reachable`).
`config-validate` and `entries` only read the runtime; `logs-clean` only deletes logs, and is
`Certman.Logs`. The JSON run log that `new`, `renew` and `check` write under `log_dir` is output
only, and is not part of the world.

Let certbot change only files of some area `A` (`CertbotWithin`). Then every world a session
reaches is `Within` the first one. Each file that differs is in `A`, or is an export file of an
entry and holds a file, or is an entry's credential file holding the ini of the credentials that
entry resolves to (`reachable_modifies_only`); so certman deletes nothing outside `A`. Each event
recorded is a certbot run with an argv certman builds (`CertbotArgs`), under the runtime's
directories and `--non-interactive`, or a copy from an entry's lineage into that entry's export
directory (`reachable_events`). Every command keeps `Within` (`Command.run_within`), from one
lemma per helper, and a session by induction.

A command that is turned down, by `typer.BadParameter` or the credential resolver's `ValueError`,
has run no certbot and copied nothing, and has changed no file unless it was `renew --all`
(`Command.run_rejects`); only `new` with an empty name and `check --fix` can be turned down after
they issued.
-/

namespace Certman

/-! ## Steps, continued -/

theorem ite_of {β : Type} {P : β → Prop} {c : Prop} [Decidable c] {x y : β} (hx : c → P x)
    (hy : ¬c → P y) : P (if c then x else y) := by
  split
  · exact hx ‹_›
  · exact hy ‹_›

section Keeps

variable {α β : Type} {R : World → World → Prop}

theorem Keeps.stepProp (hrefl : ∀ w, R w w) (hR : ∀ {w₁ w₂ w₃}, R w₁ w₂ → R w₂ w₃ → R w₁ w₃) :
    StepProp (Keeps R) :=
  ⟨Keeps.pure hrefl, fun hx hf => Keeps.bind hx hf hR⟩

/-- `Keeps.bind` for a continuation that keeps `R` only on the results `P` admits. -/
theorem Keeps.bind_ok {x : Cmd α} {f : α → Cmd β} (P : α → Prop) (hx : Keeps R x)
    (hP : ∀ w a, (x w).1 = .ok a → P a) (hf : ∀ a, P a → Keeps R (f a))
    (hR : ∀ {w₁ w₂ w₃}, R w₁ w₂ → R w₂ w₃ → R w₁ w₃) : Keeps R (x >>= f) := by
  intro w
  have h := hx w
  rcases hxw : x w with ⟨_ | a, w'⟩ <;> rw [hxw] at h
  · simpa [hxw] using h
  · simpa [hxw] using hR h (hf a (hP w a (by rw [hxw])) w')

theorem export_keeps (hrefl : ∀ w, R w w) (hR : ∀ {w₁ w₂ w₃}, R w₁ w₂ → R w₂ w₃ → R w₁ w₃)
    {rt : Runtime} {all : Bool} {name : Option String} {overwrite : Bool}
    (h : ∀ e ∈ exportTargets rt name, ∀ f ∈ exportFiles,
      Keeps R (copyOne (liveDir rt e) (outDir rt e) overwrite f)) :
    Keeps R («export» rt all name overwrite) := by
  rcases export_cases rt all name overwrite with ⟨err, he⟩ | he <;> rw [he]
  · exact Keeps.raise hrefl err
  · exact (Keeps.stepProp hrefl hR).exportEach h

end Keeps

/-- Every file that differs between two worlds satisfies `Q`, given its content after. -/
def ModifiesTo (Q : Path → Option String → Prop) (w w' : World) : Prop :=
  ∀ p, w'.files p ≠ w.files p → Q p (w'.files p)

theorem ModifiesTo.refl {Q : Path → Option String → Prop} (w : World) : ModifiesTo Q w w :=
  fun _ h => absurd rfl h

theorem ModifiesTo.trans {Q : Path → Option String → Prop} {w₁ w₂ w₃ : World}
    (h₁ : ModifiesTo Q w₁ w₂) (h₂ : ModifiesTo Q w₂ w₃) : ModifiesTo Q w₁ w₃ := fun p hp => by
  by_cases h : w₃.files p = w₂.files p
  · exact h ▸ h₁ p (h ▸ hp)
  · exact h₂ p h

/-! ## What a session may do -/

/-- Certbot changes only files of `A`, whatever its argv. -/
def CertbotWithin (A : Path → Prop) (certbot : Certbot) : Prop :=
  ∀ cmd files p, (certbot cmd files).2 p ≠ files p → A p

/-- The `--cert-name` part of a `renew` argv: nothing, or the primary domain of an entry. -/
def CertName (rt : Runtime) (certName : List String) : Prop :=
  certName = [] ∨ ∃ e ∈ rt.config.entries, certName = ["--cert-name", e.primaryDomain]

/-- The arguments certman gives certbot: `certonly` for an aliyun entry with that entry's
credential file and domains, or `renew` of every lineage or of one entry's. -/
inductive CertbotArgs (rt : Runtime) : List String → Prop
  | certonly {e : EntryConfig} (he : e ∈ rt.config.entries) (ha : lower e.dnsProvider = "aliyun")
      (force : Bool) : CertbotArgs rt (newArgs rt (credentialFile rt e) force (entryDomains e))
  | renew {certName : List String} (hc : CertName rt certName) (force dryRun : Bool) :
      CertbotArgs rt (["renew"] ++ certName ++ (if force then ["--force-renewal"] else []) ++
        (if dryRun then ["--dry-run"] else []))

/-- The events of a session: certbot runs of `CertbotArgs` under the runtime's directories, and
copies from an entry's lineage into its export directory. -/
def SessionEvent (rt : Runtime) : Event → Prop
  | .certbot cmd => ∃ args, CertbotArgs rt args ∧ cmd = certbotCmd args (certbotPaths rt)
  | .copy src dst => TargetCopy rt rt.config.entries (.copy src dst)

/-- What a path may hold once a session has changed it: anything, if certbot may write it; a
file, if it is an export file of an entry; the ini of the credentials an entry resolves to, if
it is that entry's credential file. -/
def Leaves (rt : Runtime) (A : Path → Prop) (p : Path) (v : Option String) : Prop :=
  A p ∨ (∃ e ∈ rt.config.entries, ∃ f ∈ exportFiles, p = (outDir rt e).div f ∧ v.isSome) ∨
    ∃ e ∈ rt.config.entries, p = credentialFile rt e ∧
      ∃ creds, aliyunCredentialsForEntry rt.env e = .ok creds ∧ v = some (aliyunCredentialsIni creds)

/-- What a session may do between two worlds. -/
structure Within (rt : Runtime) (A : Path → Prop) (w w' : World) : Prop where
  events : AppendsOnly (SessionEvent rt) w w'
  files : ModifiesTo (Leaves rt A) w w'

theorem Within.refl {rt : Runtime} {A : Path → Prop} (w : World) : Within rt A w w :=
  ⟨AppendsOnly.refl w, ModifiesTo.refl w⟩

theorem Within.trans {rt : Runtime} {A : Path → Prop} {w₁ w₂ w₃ : World} (h₁ : Within rt A w₁ w₂)
    (h₂ : Within rt A w₂ w₃) : Within rt A w₁ w₃ :=
  ⟨h₁.events.trans h₂.events, h₁.files.trans h₂.files⟩

/-! ## Each helper stays within -/

section Helpers

variable {rt : Runtime} {A : Path → Prop} {certbot : Certbot}

theorem runCertbot_within (hA : CertbotWithin A certbot) {args : List String}
    (hargs : CertbotArgs rt args) (passthrough : Bool) :
    Keeps (Within rt A) (runCertbot certbot args (certbotPaths rt) passthrough) := fun w =>
  ⟨⟨[.certbot (certbotCmd args (certbotPaths rt))], rfl, by simpa [SessionEvent] using ⟨args, hargs, rfl⟩⟩,
    fun p hp => .inl (hA _ _ p hp)⟩

theorem failedCertbot_within (result : CertbotResult) : Keeps (Within rt A) (failedCertbot result) := by
  unfold failedCertbot
  exact ite_of (fun _ => Keeps.pure Within.refl _) fun _ => Keeps.raise Within.refl _

theorem prepareAliyunCredentialsIni_within {e : EntryConfig} (he : e ∈ rt.config.entries) :
    Keeps (Within rt A) (prepareAliyunCredentialsIni rt e) := by
  intro w
  rcases hc : aliyunCredentialsForEntry rt.env e with err | creds
  · simpa [prepareAliyunCredentialsIni, hc] using Within.refl w
  · refine ⟨⟨[], by simp [prepareAliyunCredentialsIni, hc], by simp⟩, fun p hp => .inr (.inr ⟨e, he, ?_⟩)⟩
    by_cases hpf : p = credentialFile rt e
    · subst hpf
      simp [prepareAliyunCredentialsIni, hc]
    · simp [prepareAliyunCredentialsIni, hc, Function.update_noteq hpf] at hp

theorem prepareAliyunCredentialsIni_result {e : EntryConfig} {w : World} {file : Path}
    (h : (prepareAliyunCredentialsIni rt e w).1 = .ok file) : file = credentialFile rt e := by
  unfold prepareAliyunCredentialsIni at h
  split at h <;> simp_all

theorem copyOne_within {e : EntryConfig} (he : e ∈ rt.config.entries) {f : String}
    (hf : f ∈ exportFiles) (overwrite : Bool) :
    Keeps (Within rt A) (copyOne (liveDir rt e) (outDir rt e) overwrite f) := by
  intro w
  simp only [copyOne]
  split_ifs with h₁ h₂ h₃
  -- the three branches that copy nothing
  iterate 3 exact Within.refl w
  refine ⟨⟨_, rfl, by simpa [SessionEvent, TargetCopy] using ⟨e, he, f, hf, rfl, rfl⟩⟩,
    fun p hp => .inr (.inl ⟨e, he, f, hf, ?_⟩)⟩
  by_cases hpd : p = (outDir rt e).div f
  · subst hpd
    simpa [Option.isSome_iff_ne_none] using h₁
  · simp [Function.update_noteq hpd] at hp

theorem export_within (all : Bool) (name : Option String) (overwrite : Bool) :
    Keeps (Within rt A) («export» rt all name overwrite) :=
  export_keeps Within.refl Within.trans fun e he _ hf =>
    copyOne_within (exportTargets_subset rt name e he) hf overwrite

theorem prepareAll_within : ∀ {es : List EntryConfig}, (∀ e ∈ es, e ∈ rt.config.entries) →
    Keeps (Within rt A) (prepareAll rt es)
  | [], _ => Keeps.pure Within.refl _
  | e :: _, h => Keeps.bind (prepareAliyunCredentialsIni_within (h e (List.mem_cons_self _ _)))
      (fun _ => prepareAll_within fun e' he' => h e' (List.mem_cons_of_mem _ he')) Within.trans

theorem renewTarget_within (name : String) : Keeps (Within rt A) (renewTarget rt name) := by
  unfold renewTarget
  rcases hn : named rt name with _ | ⟨target, _⟩
  · exact Keeps.raise Within.refl _
  · exact Keeps.bind (prepareAliyunCredentialsIni_within (mem_named.mp (hn ▸ List.mem_cons_self _ _)).1)
      (fun _ => Keeps.pure Within.refl _) Within.trans

theorem renewTarget_result {name : String} {w : World} {certName : List String}
    (h : (renewTarget rt name w).1 = .ok certName) : CertName rt certName := by
  unfold renewTarget at h
  rcases hn : named rt name with _ | ⟨target, _⟩ <;> rw [hn] at h
  · cases h
  · rcases hc : aliyunCredentialsForEntry rt.env target with err | creds <;>
      simp only [bind_apply, prepareAliyunCredentialsIni, hc, pure_apply, Except.ok.injEq,
        reduceCtorEq] at h
    exact .inr ⟨target, (mem_named.mp (hn ▸ List.mem_cons_self _ _)).1, h.symm⟩

end Helpers

/-! ## Each command stays within -/

section Commands

variable {rt : Runtime} {A : Path → Prop} {certbot : Certbot} (hA : CertbotWithin A certbot)
include hA

theorem new_within (name : String) (force export_ : Bool) (verbose : Param Bool) :
    Keeps (Within rt A) (new certbot rt name force export_ verbose) := by
  unfold new
  split
  · exact Keeps.raise Within.refl _
  · rename_i entry _ hn
    have he : entry ∈ rt.config.entries := (mem_named.mp (hn ▸ List.mem_cons_self _ _)).1
    refine ite_of (fun _ => Keeps.raise Within.refl _) fun ha => ?_
    refine Keeps.bind_ok (· = credentialFile rt entry) (prepareAliyunCredentialsIni_within he)
      (fun _ _ => prepareAliyunCredentialsIni_result) (fun _ hfile => ?_) Within.trans
    subst hfile
    exact Keeps.bind (runCertbot_within hA (.certonly he (by simpa using ha) force) _) (fun r =>
      Keeps.bind (failedCertbot_within r) (fun _ => ite_of (fun _ => export_within _ _ _)
        fun _ => Keeps.pure Within.refl _) Within.trans) Within.trans

theorem renew_within (all : Bool) (name : Option String) (force : Bool) (dryRun : Param Bool)
    (export_ : Bool) (verbose : Param Bool) :
    Keeps (Within rt A) (renew certbot rt all name force dryRun export_ verbose) := by
  unfold renew
  refine ite_of (fun _ => Keeps.raise Within.refl _) fun _ => ?_
  dsimp only
  refine ite_of (fun _ => Keeps.bind (prepareAll_within fun _ => id) (fun _ => ?_) Within.trans)
    (fun _ => Keeps.bind (Keeps.pure Within.refl _) (fun _ => ?_) Within.trans) <;>
  refine ite_of
    (fun _ => Keeps.bind_ok (CertName rt) (renewTarget_within _) (fun _ _ => renewTarget_result)
      (fun _ hc => ?_) Within.trans)
    (fun _ => Keeps.bind_ok (CertName rt) (Keeps.pure Within.refl _)
      (fun _ _ h => .inl (Except.ok.inj h).symm) (fun _ hc => ?_) Within.trans) <;>
  exact Keeps.bind (runCertbot_within hA (.renew hc force _) _) (fun r =>
    Keeps.bind (failedCertbot_within r) (fun _ => ite_of
      (fun _ => ite_of (fun _ => export_within _ _ _) fun _ => export_within _ _ _)
      fun _ => Keeps.pure Within.refl _) Within.trans) Within.trans

theorem runFix_within : ∀ actions : List FixAction, Keeps (Within rt A) (runFix certbot rt actions)
  | [] => Keeps.pure Within.refl _
  | a :: as => by
    refine Keeps.bind ?_ (fun _ => runFix_within as) Within.trans
    unfold fixAction
    exact ite_of (fun _ => new_within hA _ _ _ _) fun _ =>
      ite_of (fun _ => renew_within hA _ _ _ _ _ _) fun _ => Keeps.pure Within.refl _

theorem check_within (readCert : String → CertStatus) (warnDays forceRenewDays : Int)
    (name : Option String) (fix : Bool) :
    Keeps (Within rt A) (check certbot readCert rt warnDays forceRenewDays name fix) := by
  unfold check
  split
  · exact Keeps.raise Within.refl _
  · refine Keeps.bind (fun w => Within.refl w) (fun _ => ?_) Within.trans
    split
    dsimp only
    exact ite_of (fun _ => Keeps.bind (runFix_within hA _) (fun _ => Keeps.raise Within.refl _)
      Within.trans) fun _ => Keeps.bind (Keeps.pure Within.refl _) (fun _ => Keeps.raise Within.refl _)
      Within.trans

end Commands

/-! ## Sessions -/

/-- A run of the CLI that acts on the data directory, with the parameters its caller passes;
`check` with the certificates as read at the time of the run. -/
inductive Command
  | new (name : String) (force export_ verbose : Bool)
  | renew (all : Bool) (name : Option String) (force dryRun export_ verbose : Bool)
  | «export» (all : Bool) (name : Option String) (overwrite : Bool)
  | check (readCert : String → CertStatus) (warnDays forceRenewDays : Int) (name : Option String)
      (fix : Bool)

/-- One run of a command from the command line. -/
def Command.run (certbot : Certbot) (rt : Runtime) : Command → Cmd Unit
  | .new name force export_ verbose => Certman.new certbot rt name force export_ (.val verbose)
  | .renew all name force dryRun export_ verbose =>
    Certman.renew certbot rt all name force (.val dryRun) export_ (.val verbose)
  | .export all name overwrite => Certman.export rt all name overwrite
  | .check readCert warnDays forceRenewDays name fix =>
    Certman.check certbot readCert rt warnDays forceRenewDays name fix

theorem Command.run_within {rt : Runtime} {A : Path → Prop} {certbot : Certbot}
    (hA : CertbotWithin A certbot) : ∀ c : Command, Keeps (Within rt A) (c.run certbot rt)
  | .new .. => new_within hA _ _ _ _
  | .renew .. => renew_within hA _ _ _ _ _ _
  | .export .. => export_within _ _ _
  | .check .. => check_within hA _ _ _ _ _

/-- The worlds a session over `rt` reaches from `w₀`, each run with a certbot that changes only
files of `A`. -/
inductive Reachable (rt : Runtime) (A : Path → Prop) (w₀ : World) : World → Prop
  | init : Reachable rt A w₀ w₀
  | step {w : World} (certbot : Certbot) (hA : CertbotWithin A certbot) (c : Command) :
      Reachable rt A w₀ w → Reachable rt A w₀ (c.run certbot rt w).2

theorem Reachable.within {rt : Runtime} {A : Path → Prop} {w₀ w : World} (h : Reachable rt A w₀ w) :
    Within rt A w₀ w := by
  induction h with
  | init => exact Within.refl w₀
  | step certbot hA c _ ih => exact ih.trans (Command.run_within hA c _)

/-- Over any session, every file certman changes is one certbot may write, an export file of an
entry, which then holds a file, or an entry's credential file, which then holds the ini of the
credentials that entry resolves to. -/
theorem reachable_modifies_only {rt : Runtime} {A : Path → Prop} {w₀ w : World}
    (h : Reachable rt A w₀ w) (p : Path) (hp : w.files p ≠ w₀.files p) : Leaves rt A p (w.files p) :=
  h.within.files p hp

/-- One `new` of an aliyun entry with its own keys, without export: its credential file is
written. -/
theorem new_session_writes_credentials :
    let e : EntryConfig := { name := "a", primaryDomain := "a.test", dnsProvider := "aliyun"
                             credentials := { accessKeyId := some "id", accessKeySecret := some "secret" } }
    let rt : Runtime := ⟨runtimePaths "data" ⟨{}, [e]⟩, ⟨{}, [e]⟩, fun _ => none⟩
    let certbot : Certbot := fun _ files => ((0, "", ""), files)
    let w₀ : World := ⟨fun _ => none, []⟩
    let w := ((Command.new "a" false false false).run certbot rt w₀).2
    Reachable rt (fun _ => False) w₀ w ∧ w.files (credentialFile rt e) ≠ w₀.files (credentialFile rt e) ∧
      Leaves rt (fun _ => False) (credentialFile rt e) (w.files (credentialFile rt e)) := by
  intro e rt certbot w₀ w
  have hr : Reachable rt (fun _ => False) w₀ w := .step certbot (fun _ _ _ h => h rfl) _ .init
  have hp : w.files (credentialFile rt e) ≠ w₀.files (credentialFile rt e) := by decide
  exact ⟨hr, hp, reachable_modifies_only hr _ hp⟩

/-- Over any session, every event is a certbot run of `CertbotArgs` under the runtime's
directories, or a copy from an entry's lineage into that entry's export directory. -/
theorem reachable_events {rt : Runtime} {A : Path → Prop} {w₀ w : World} (h : Reachable rt A w₀ w) :
    ∃ evs, w.events = w₀.events ++ evs ∧ ∀ ev ∈ evs, SessionEvent rt ev :=
  h.within.events

/-- One `new` of an aliyun entry with its own keys, then an export of all entries. -/
theorem new_then_export_events :
    let e : EntryConfig := { name := "a", primaryDomain := "a.test", dnsProvider := "aliyun"
                             credentials := { accessKeyId := some "id", accessKeySecret := some "secret" } }
    let rt : Runtime := ⟨runtimePaths "data" ⟨{}, [e]⟩, ⟨{}, [e]⟩, fun _ => none⟩
    let certbot : Certbot := fun _ files => ((0, "", ""), files)
    let w₀ : World := ⟨fun _ => some "pem", []⟩
    let w₁ := ((Command.new "a" false false false).run certbot rt w₀).2
    let w := ((Command.export true none true).run certbot rt w₁).2
    Reachable rt (fun _ => False) w₀ w ∧
      ∃ evs, w.events = w₀.events ++ evs ∧ ∀ ev ∈ evs, SessionEvent rt ev := by
  intro e rt certbot w₀ w₁ w
  have hr : Reachable rt (fun _ => False) w₀ w :=
    .step certbot (fun _ _ _ h => h rfl) _ (.step certbot (fun _ _ _ h => h rfl) _ .init)
  exact ⟨hr, reachable_events hr⟩

/-! ## What a rejected run leaves -/

/-- The exceptions that turn a request down: `typer.BadParameter`, and a `ValueError` of the
credential resolver. -/
def CliError.IsRejection : CliError → Prop
  | .badParameter _ => True
  | .credential _ => True
  | _ => False

/-- A step that never ends with a rejection. -/
def NeverRejects {α : Type} (c : Cmd α) : Prop := ∀ w err, (c w).1 = .error err → ¬err.IsRejection

/-- A step that ends with a rejection only in a world related by `R` to the one before. -/
def RejectsWithin {α : Type} (R : World → World → Prop) (c : Cmd α) : Prop :=
  ∀ w err, (c w).1 = .error err → err.IsRejection → R w (c w).2

section Rejections

variable {α β : Type} {R : World → World → Prop}

theorem NeverRejects.stepProp : StepProp NeverRejects := by
  refine ⟨fun _ _ _ h => (by cases h), ?_⟩
  intro α β x f hx hf w err h
  rcases hxw : x w with ⟨_ | a, w'⟩
  · simp only [bind_apply, hxw, Except.error.injEq] at h
    exact h ▸ hx w _ (by rw [hxw])
  · simp only [bind_apply, hxw] at h
    exact hf a w' err h

theorem NeverRejects.raise {err : CliError} (h : ¬err.IsRejection) : NeverRejects (raise err : Cmd α) :=
  fun _ _ he => by cases he; exact h

theorem NeverRejects.rejectsWithin {c : Cmd α} (h : NeverRejects c) : RejectsWithin R c :=
  fun w err he hr => absurd hr (h w err he)

theorem RejectsWithin.mono {R' : World → World → Prop} {c : Cmd α} (h : RejectsWithin R c)
    (hR : ∀ {w w'}, R w w' → R' w w') : RejectsWithin R' c :=
  fun w err he hr => hR (h w err he hr)

theorem RejectsWithin.raise (hrefl : ∀ w, R w w) (err : CliError) :
    RejectsWithin R (raise err : Cmd α) :=
  fun w _ _ _ => hrefl w

/-- A step that keeps `R`, followed by steps that reject only within `R`. -/
theorem RejectsWithin.bind {x : Cmd α} {f : α → Cmd β} (hx : Keeps R x)
    (hf : ∀ a, RejectsWithin R (f a)) (hR : ∀ {w₁ w₂ w₃}, R w₁ w₂ → R w₂ w₃ → R w₁ w₃) :
    RejectsWithin R (x >>= f) := by
  intro w err h hr
  rcases hxw : x w with ⟨_ | a, w'⟩
  · simpa [hxw] using hx w
  · simp only [bind_apply, hxw] at h ⊢
    exact hR (by simpa only [hxw] using hx w) (hf a w' err h hr)

/-- A check that rejects only within `R`, followed by steps that never reject once it passed. -/
theorem RejectsWithin.bind_never {x : Cmd α} {f : α → Cmd β} (P : α → Prop) (hx : RejectsWithin R x)
    (hP : ∀ w a, (x w).1 = .ok a → P a) (hf : ∀ a, P a → NeverRejects (f a)) :
    RejectsWithin R (x >>= f) := by
  intro w err h hr
  rcases hxw : x w with ⟨_ | a, w'⟩
  · simp only [bind_apply, hxw, Except.error.injEq] at h
    simpa [hxw] using hx w err (by rw [hxw, h]) hr
  · simp only [bind_apply, hxw] at h
    exact absurd hr (hf a (hP w a (by rw [hxw])) w' err h)

theorem runCertbot_neverRejects (certbot : Certbot) (args : List String) (paths : CertbotPaths)
    (passthrough : Bool) : NeverRejects (runCertbot certbot args paths passthrough) :=
  fun _ _ h => by simp [runCertbot] at h

theorem failedCertbot_neverRejects (result : CertbotResult) : NeverRejects (failedCertbot result) := by
  unfold failedCertbot
  exact ite_of (fun _ => NeverRejects.stepProp.pure _) fun _ => NeverRejects.raise id

theorem copyOne_neverRejects (live out : Path) (overwrite : Bool) (f : String) :
    NeverRejects (copyOne live out overwrite f) := fun w err h => by
  simp only [copyOne] at h
  split_ifs at h
  cases h
  exact id

/-- An export asked for `--all`, or for a name some entry has, is never turned down. -/
theorem export_neverRejects {rt : Runtime} {all : Bool} {name : Option String} {overwrite : Bool}
    (hsel : all = true ∨ truthy name = true) (hn : truthy name = true → named rt (name.getD "") ≠ []) :
    NeverRejects («export» rt all name overwrite) := by
  have hloop := fun targets => @StepProp.exportEach _ NeverRejects.stepProp rt overwrite targets
    fun _ _ _ _ => copyOne_neverRejects _ _ _ _
  unfold «export»
  refine ite_of (fun h => absurd hsel (by cases all <;> cases truthy name <;> simp_all)) fun _ =>
    ite_of (fun ht => ?_) fun _ => hloop _
  rcases hnm : named rt (name.getD "") with _ | ⟨e, es⟩
  · exact absurd hnm (hn ht)
  · exact hloop _

theorem prepareAliyunCredentialsIni_rejects (hrefl : ∀ w, R w w) (rt : Runtime) (e : EntryConfig) :
    RejectsWithin R (prepareAliyunCredentialsIni rt e) := fun w err h _ => by
  unfold prepareAliyunCredentialsIni at h ⊢
  split at h
  · exact hrefl w
  · cases h

theorem prepareAliyunCredentialsIni_events (rt : Runtime) (e : EntryConfig) :
    Keeps (fun w w' => w'.events = w.events) (prepareAliyunCredentialsIni rt e) := fun _ => by
  unfold prepareAliyunCredentialsIni
  split <;> rfl

theorem prepareAll_events (rt : Runtime) :
    ∀ es : List EntryConfig, Keeps (fun w w' => w'.events = w.events) (prepareAll rt es)
  | [] => Keeps.pure (R := fun w w' => w'.events = w.events) (fun _ => rfl) _
  | e :: es => Keeps.bind (prepareAliyunCredentialsIni_events rt e) (fun _ => prepareAll_events rt es)
      fun h₁ h₂ => h₂.trans h₁

theorem renewTarget_rejects (hrefl : ∀ w, R w w) (rt : Runtime) (name : String) :
    RejectsWithin R (renewTarget rt name) := by
  unfold renewTarget
  rcases named rt name with _ | ⟨target, _⟩
  · exact RejectsWithin.raise hrefl _
  · exact RejectsWithin.bind_never (fun _ => True) (prepareAliyunCredentialsIni_rejects hrefl rt target)
      (fun _ _ _ => trivial) fun _ _ => NeverRejects.stepProp.pure _

theorem renewTarget_named {rt : Runtime} {name : String} {w : World} {certName : List String}
    (h : (renewTarget rt name w).1 = .ok certName) : named rt name ≠ [] := fun hn => by
  simp only [renewTarget, hn, raise_apply, reduceCtorEq] at h

end Rejections

section RejectedCommands

variable (certbot : Certbot) (rt : Runtime)

/-- A `new` for a non-empty name that is turned down leaves the world as it was: the entry is
checked and its credentials resolved before anything is written or run. -/
theorem new_rejects {name : String} (hname : name ≠ "") (force export_ : Bool) (verbose : Param Bool) :
    RejectsWithin Eq (new certbot rt name force export_ verbose) := by
  unfold new
  rcases hn : named rt name with _ | ⟨entry, es⟩
  · exact RejectsWithin.raise (fun _ => rfl) _
  · refine ite_of (fun _ => RejectsWithin.raise (fun _ => rfl) _) fun _ => ?_
    refine RejectsWithin.bind_never (fun _ => True)
      (prepareAliyunCredentialsIni_rejects (fun _ => rfl) rt entry) (fun _ _ _ => trivial) fun _ _ => ?_
    have hsel : truthy (some name) = true := by simpa using hname
    exact NeverRejects.stepProp.bind (runCertbot_neverRejects _ _ _ _) fun r =>
      NeverRejects.stepProp.bind (failedCertbot_neverRejects r) fun _ =>
        ite_of (fun _ => export_neverRejects (.inr hsel) fun _ => by simp [hn])
          fun _ => NeverRejects.stepProp.pure _

/-- With an empty name the export after issuing asks for `--all or --name`: an entry named `""`
gets its certificate, and the run is then turned down. -/
example :
    let e : EntryConfig := { name := "", primaryDomain := "a.test", dnsProvider := "aliyun"
                             credentials := { accessKeyId := some "id", accessKeySecret := some "secret" } }
    let rt : Runtime := ⟨runtimePaths "data" ⟨{}, [e]⟩, ⟨{}, [e]⟩, fun _ => none⟩
    let run := new (fun _ files => ((0, "", ""), files)) rt "" false true (.val false) ⟨fun _ => none, []⟩
    run.1 = .error (.badParameter "must provide --all or --name") ∧ run.2.events.length = 1 :=
  ⟨rfl, rfl⟩

/-- An `export` that is turned down has copied nothing. -/
theorem export_rejects (all : Bool) (name : Option String) (overwrite : Bool) :
    RejectsWithin Eq («export» rt all name overwrite) := by
  rcases export_cases rt all name overwrite with ⟨err, he⟩ | he <;> rw [he]
  · exact RejectsWithin.raise (fun _ => rfl) err
  · exact (NeverRejects.stepProp.exportEach fun _ _ _ _ => copyOne_neverRejects _ _ _ _).rejectsWithin

/-- A `check` without `--fix` is turned down only for a name no entry has, before it reads
anything: it has changed nothing. -/
theorem check_rejects (readCert : String → CertStatus) (warnDays forceRenewDays : Int)
    (name : Option String) :
    RejectsWithin Eq (check certbot readCert rt warnDays forceRenewDays name false) := by
  unfold check
  split
  · exact RejectsWithin.raise (fun _ => rfl) _
  · refine (NeverRejects.stepProp.bind (fun _ _ h => by cases h) fun _ => ?_).rejectsWithin
    exact NeverRejects.stepProp.bind (NeverRejects.stepProp.pure _) fun _ => NeverRejects.raise id

/-- A `renew` that is turned down has run no certbot and copied nothing, and one for a single name
has written nothing either; `--all` may have written the credential files of the entries before the
one that failed. -/
theorem renew_rejects (all : Bool) (name : Option String) (force : Bool) (dryRun : Param Bool)
    (export_ : Bool) (verbose : Param Bool) :
    RejectsWithin (fun w w' => w'.events = w.events ∧ (all = false → w' = w))
      (renew certbot rt all name force dryRun export_ verbose) := by
  have hrefl : ∀ w : World, w.events = w.events ∧ (all = false → w = w) := fun _ => ⟨rfl, fun _ => rfl⟩
  have htrans : ∀ {w₁ w₂ w₃ : World}, (w₂.events = w₁.events ∧ (all = false → w₂ = w₁)) →
      (w₃.events = w₂.events ∧ (all = false → w₃ = w₂)) → w₃.events = w₁.events ∧ (all = false → w₃ = w₁) :=
    fun h₁ h₂ => ⟨h₂.1.trans h₁.1, fun ha => (h₂.2 ha).trans (h₁.2 ha)⟩
  unfold renew
  refine ite_of (fun _ => RejectsWithin.raise hrefl _) fun _ => ?_
  dsimp only
  refine ite_of (fun hall => RejectsWithin.bind
      (fun w => ⟨prepareAll_events rt _ w, fun h => absurd (hall.symm.trans h) (by decide)⟩)
      (fun _ => ?_) htrans)
    (fun _ => RejectsWithin.bind (Keeps.pure hrefl _) (fun _ => ?_) htrans) <;>
  refine ite_of
    (fun _ => RejectsWithin.bind_never (fun _ => (truthy name && !all) = true → named rt (name.getD "") ≠ [])
      (renewTarget_rejects hrefl rt _) (fun _ _ h _ => renewTarget_named h) fun _ hn => ?_)
    (fun hc => RejectsWithin.bind_never (fun _ => (truthy name && !all) = true → named rt (name.getD "") ≠ [])
      (NeverRejects.stepProp.pure _).rejectsWithin (fun _ _ _ h => absurd h hc) fun _ hn => ?_) <;>
  exact NeverRejects.stepProp.bind (runCertbot_neverRejects _ _ _ _) fun r =>
    NeverRejects.stepProp.bind (failedCertbot_neverRejects r) fun _ => ite_of
      (fun _ => ite_of (fun hc => export_neverRejects (.inr (Bool.and_eq_true _ _ ▸ hc).1) fun _ => hn hc)
        fun _ => export_neverRejects (.inl rfl) fun h => by simp at h)
      fun _ => NeverRejects.stepProp.pure _

/-- Whether a command line is `renew --all`. -/
def Command.renewsAll : Command → Bool
  | .renew all .. => all
  | _ => false

/-- A command line that is turned down ran no certbot and copied nothing, and it changed no file
unless it was `renew --all`. The exceptions are `new` with an empty name and `check --fix`, which
can be turned down after they issued. -/
theorem Command.run_rejects (c : Command)
    (hnew : ∀ force export_ verbose, c ≠ .new "" force export_ verbose)
    (hcheck : ∀ readCert warnDays forceRenewDays name,
      c ≠ .check readCert warnDays forceRenewDays name true) :
    RejectsWithin (fun w w' => w'.events = w.events ∧ (c.renewsAll = false → w' = w))
      (c.run certbot rt) := by
  have hEq : ∀ {w w' : World}, w = w' → w'.events = w.events ∧ (c.renewsAll = false → w' = w) := by
    rintro w _ rfl
    exact ⟨rfl, fun _ => rfl⟩
  cases c with
  | new name force export_ verbose =>
    exact (new_rejects certbot rt (fun h => hnew force export_ verbose (h ▸ rfl)) _ _ _).mono hEq
  | renew all name force dryRun export_ verbose => exact renew_rejects certbot rt _ _ _ _ _ _
  | «export» all name overwrite => exact (export_rejects rt _ _ _).mono hEq
  | check readCert warnDays forceRenewDays name fix =>
    cases fix
    · exact (check_rejects certbot rt _ _ _ _).mono hEq
    · exact absurd rfl (hcheck readCert warnDays forceRenewDays name)

end RejectedCommands

end Certman
