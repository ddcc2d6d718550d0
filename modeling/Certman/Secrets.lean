import Certman.Providers

/-!
# What `config-validate` accepts

Three facts about `_required_env_keys`, each over every entry and every environment:

1. The provider check sits on the account branch only: `validate_required_secrets` raises
   the unsupported-provider error exactly when the first entry that reaches that branch with an
   unknown provider does (`validateRequiredSecrets_eq_unsupported_iff`).
2. Setting more variables shrinks what an entry reports, except for an entry whose
   credentials are all references and which also names an `account_id`: once its references
   resolve, it falls through to the account keys.
3. On aliyun entries the validator accepts exactly what the resolver resolves, when both read
   the credential texts alike and apply the same precedence to the entry
   (`requiredEnvKeys_eq_nil_iff_resolves`).
-/

namespace Certman

/-! ## Rejected providers -/

/-- The providers `_required_env_keys` has key names for, after lowering. -/
def knownProvider (p : String) : Bool := lower p ∈ ["cloudflare", "route53", "aliyun"]

/-- The entries `_required_env_keys` rejects: no unset reference, no plain credential, an
`account_id`, and a provider it has no key names for. -/
def Rejects (env : Env) (e : EntryConfig) : Prop :=
  e.missingRefs env = [] ∧ e.hasPlain = false ∧ e.account ≠ "" ∧ knownProvider e.dnsProvider = false

theorem accountKeys_eq_none_iff_unknown {p a : String} :
    accountKeys (lower p) a = none ↔ knownProvider p = false := by
  simp [accountKeys_eq_none_iff, knownProvider, and_assoc]

theorem requiredEnvKeys_eq_error_iff {env : Env} {e : EntryConfig} {err : SecretsError} :
    requiredEnvKeys e env = .error err ↔ Rejects env e ∧ err = .unsupportedProvider e.dnsProvider := by
  unfold Rejects
  by_cases h₁ : e.missingRefs env ≠ [] ∨ e.hasPlain = true
  · rw [requiredEnvKeys_of_refs h₁]
    rcases h₁ with h | h <;> simp [h]
  · simp only [not_or, ne_eq, not_not, Bool.not_eq_true] at h₁
    by_cases h₃ : e.account = ""
    · simp [requiredEnvKeys_of_no_account h₁.1 h₁.2 h₃, h₃]
    · rw [requiredEnvKeys_of_account h₁.1 h₁.2 h₃, ← @accountKeys_eq_none_iff_unknown _ e.account]
      split <;> rename_i hk
      · simp [hk]
      · simp [h₁, h₃, hk, eq_comm]

/-- The loop stops at the first rejected entry, and only there. -/
theorem collectMissing_eq_error_iff {env : Env} {err : SecretsError} :
    ∀ {es : List EntryConfig}, collectMissing env es = .error err ↔
      ∃ pre e post, es = pre ++ e :: post ∧ (∀ e' ∈ pre, ¬ Rejects env e') ∧ Rejects env e ∧
        err = .unsupportedProvider e.dnsProvider
  | [] => by simp
  | e :: es => by
    rw [collectMissing_cons]
    cases hk : requiredEnvKeys e env with
    | error err' =>
      obtain ⟨hr, rfl⟩ := requiredEnvKeys_eq_error_iff.mp hk
      simp only [bind_error, Except.error.injEq]
      constructor
      · rintro rfl; exact ⟨[], e, es, rfl, by simp, hr, rfl⟩
      · rintro ⟨_ | ⟨e₀, pre⟩, e', post, heq, hpre, hr', rfl⟩
        · cases heq; rfl
        · cases heq; exact absurd hr (hpre _ (List.mem_cons_self _ _))
    | ok keys =>
      have hne : ¬ Rejects env e := fun hr =>
        by simpa [hk] using requiredEnvKeys_eq_error_iff.mpr ⟨hr, rfl⟩
      rw [bind_ok, bind_eq_error_iff, collectMissing_eq_error_iff]
      simp only [pure_eq_ok, reduceCtorEq, and_false, exists_false, or_false]
      constructor
      · rintro ⟨pre, e', post, rfl, hpre, hr, rfl⟩
        exact ⟨e :: pre, e', post, rfl, by simpa [hne] using hpre, hr, rfl⟩
      · rintro ⟨_ | ⟨e₀, pre⟩, e', post, heq, hpre, hr, rfl⟩
        · cases heq; exact absurd hr hne
        · cases heq; exact ⟨pre, e', post, rfl, fun x hx => hpre x (List.mem_cons_of_mem _ hx), hr, rfl⟩

/-- `validate_required_secrets` raises the unsupported-provider error exactly when some entry
is rejected, and it names the provider of the first one. -/
theorem validateRequiredSecrets_eq_unsupported_iff (cfg : AppConfig) (env : Env) (p : String) :
    cfg.validateRequiredSecrets env = .error (.unsupportedProvider p) ↔
      ∃ pre e post, cfg.entries = pre ++ e :: post ∧ (∀ e' ∈ pre, ¬ Rejects env e') ∧
        Rejects env e ∧ p = e.dnsProvider := by
  have h := @collectMissing_eq_error_iff env (.unsupportedProvider p) cfg.entries
  simp only [SecretsError.unsupportedProvider.injEq] at h
  rw [← h, AppConfig.validateRequiredSecrets]
  split <;> rename_i hc <;> simp only [hc]
  · split <;> simp
  · simp

/-- An entry with an unknown provider and a plain credential passes `config-validate`. -/
theorem unknown_provider_with_plain_credential_passes :
    knownProvider "gandi" = false ∧
      ({ global_ := {}
         entries := [{ name := "a", primaryDomain := "a.test", dnsProvider := "gandi"
                       credentials := { accessKeyId := some "key" } }] } : AppConfig).validateRequiredSecrets
        (fun _ => none) = .ok () :=
  ⟨by decide, rfl⟩

/-! ## Reports under a growing environment -/

/-- `env'` keeps every variable `env` sets non-empty. -/
def Grows (env env' : Env) : Prop := ∀ k, truthy (env k) = true → truthy (env' k) = true

/-- The entries whose credentials are all references and which name an `account_id`: once their
references resolve, `_required_env_keys` turns to the account keys. -/
def RefsWithAccount (e : EntryConfig) : Prop :=
  e.hasPlain = false ∧ e.account ≠ "" ∧ ∃ v ∈ e.credentials.values, v ≠ none ∧ isEnvRef (v.getD "")

instance : DecidablePred RefsWithAccount := fun _ => inferInstanceAs (Decidable (_ ∧ _))

/-- What an entry reports under `env'` is part of what it reports under `env`, and it raises
what it raised. -/
def Shrinks : Except SecretsError (List String) → Except SecretsError (List String) → Prop
  | .ok ks, .ok ks' => ks'.Sublist ks
  | .error err, .error err' => err = err'
  | _, _ => False

section Growth

variable {env env' : Env} {e : EntryConfig}

theorem missingRef_sublist (hg : Grows env env') (v : Option String) :
    (missingRef env' v).Sublist (missingRef env v) := by
  cases v with
  | none => exact List.Sublist.refl _
  | some v =>
    simp only [missingRef]
    by_cases h : truthy (env (envRefKey v)) = true
    · simp [hg _ h]
    · split_ifs <;> simp_all

theorem missingRefs_sublist (hg : Grows env env') :
    (e.missingRefs env').Sublist (e.missingRefs env) := by
  simp only [EntryConfig.missingRefs, CredentialsConfig.values, List.flatMap_cons,
    List.flatMap_nil, List.append_nil, ← List.append_assoc]
  exact ((missingRef_sublist hg _).append (missingRef_sublist hg _)).append (missingRef_sublist hg _)

theorem missingRefs_eq_nil (he : ∀ v ∈ e.credentials.values, v = none ∨ isEnvRef (v.getD "") = false) :
    e.missingRefs env = [] := by
  simp only [EntryConfig.missingRefs, List.flatMap_eq_nil_iff]
  intro v hv
  rcases he v hv with rfl | h
  · rfl
  · cases v <;> simp_all [missingRef]

/-- Each entry reports less, and raises alike, once more variables are set, unless it is one
whose references lead to its account keys. -/
theorem requiredEnvKeys_shrinks (hg : Grows env env') (he : ¬ RefsWithAccount e) :
    Shrinks (requiredEnvKeys e env) (requiredEnvKeys e env') := by
  by_cases hpa : e.hasPlain = true ∨ e.account = ""
  · simp [requiredEnvKeys_of_plain_or_no_account hpa, Shrinks, missingRefs_sublist hg]
  simp only [not_or, Bool.not_eq_true] at hpa
  obtain ⟨hp, ha⟩ := hpa
  have hrefs : ∀ v ∈ e.credentials.values, v = none ∨ isEnvRef (v.getD "") = false := by
    intro v hv
    by_contra h
    simp only [not_or, Bool.not_eq_false] at h
    exact he ⟨hp, ha, v, hv, h⟩
  simp only [requiredEnvKeys_of_account (missingRefs_eq_nil hrefs) hp ha]
  split
  · exact List.monotone_filter_right _ fun k hk => by
      simp only [Bool.not_eq_true', Bool.not_eq_eq_eq_not, Bool.not_true] at hk ⊢
      cases h : truthy (env k) <;> simp_all [hg k]
  · rfl

theorem missingRefs_unset {k : String} (hk : k ∈ e.missingRefs env) : truthy (env k) = false := by
  obtain ⟨v, -, hv⟩ := List.mem_flatMap.mp hk
  cases v <;> simp only [missingRef] at hv
  · simp at hv
  · split_ifs at hv with h <;> simp_all

/-- Every key an entry reports is unset in the environment it was checked against. -/
theorem requiredEnvKeys_unset {ks : List String} (h : requiredEnvKeys e env = .ok ks) :
    ∀ k ∈ ks, truthy (env k) = false := by
  simp only [requiredEnvKeys] at h
  split_ifs at h
  · cases h; exact fun k => missingRefs_unset
  · cases h; simp
  · split at h
    · cases h; simp
    · cases h

theorem collectMissing_unset : ∀ {es : List EntryConfig} {ks : List String},
    collectMissing env es = .ok ks → ∀ k ∈ ks, truthy (env k) = false
  | [], _, h => by cases h; simp
  | e :: es, ks, h => by
    obtain ⟨keys, hk, h⟩ := bind_eq_ok_iff.mp h
    obtain ⟨rest, hr, h⟩ := bind_eq_ok_iff.mp h
    cases h
    simpa [or_imp, forall_and] using ⟨requiredEnvKeys_unset hk, collectMissing_unset hr⟩

theorem collectMissing_shrinks (hg : Grows env env') : ∀ {es : List EntryConfig},
    (∀ e ∈ es, ¬ RefsWithAccount e) → Shrinks (collectMissing env es) (collectMissing env' es)
  | [], _ => List.Sublist.refl _
  | e :: es, he => by
    have h₁ := requiredEnvKeys_shrinks hg (he e (List.mem_cons_self _ _))
    have h₂ := collectMissing_shrinks hg fun x hx => he x (List.mem_cons_of_mem _ hx)
    simp only [collectMissing_cons]
    revert h₁ h₂
    cases requiredEnvKeys e env <;> cases requiredEnvKeys e env' <;>
      cases collectMissing env es <;> cases collectMissing env' es <;>
      simp +contextual [Shrinks, List.Sublist.append]

theorem mem_sortedSet {k : String} {keys : List String} : k ∈ sortedSet keys ↔ k ∈ keys :=
  (List.perm_insertionSort _ _).mem_iff.trans List.mem_dedup

/-- Setting every key `config-validate` reported settles the configuration, when no entry has
references that lead to its account keys. -/
theorem validateRequiredSecrets_settles {cfg : AppConfig} {K : List String}
    (he : ∀ e ∈ cfg.entries, ¬ RefsWithAccount e) (hg : Grows env env')
    (hK : ∀ k ∈ K, truthy (env' k) = true)
    (h : cfg.validateRequiredSecrets env = .error (.missingEnvKeys K)) :
    cfg.validateRequiredSecrets env' = .ok () := by
  have hs := collectMissing_shrinks hg he
  unfold AppConfig.validateRequiredSecrets at h ⊢
  cases hce : collectMissing env cfg.entries with
  | error err =>
    obtain ⟨_, _, _, _, _, _, rfl⟩ := collectMissing_eq_error_iff.mp hce
    simp [hce] at h
  | ok missing =>
    rw [hce] at hs h
    cases hc : collectMissing env' cfg.entries with
    | error err => simp [hc, Shrinks] at hs
    | ok missing' =>
      rw [hc] at hs
      have hK' : K = sortedSet missing := by
        simp only at h
        split_ifs at h
        simp_all
      have hnil : missing' = [] := List.eq_nil_iff_forall_not_mem.mpr fun k hk => by
        have := hK k (hK' ▸ mem_sortedSet.mpr (List.Sublist.subset hs hk))
        simp [collectMissing_unset hc k hk] at this
      simp [hnil]

end Growth

/-- An `account_id`-only entry: setting the two keys it reports settles it. -/
theorem account_only_entry_settles :
    let cfg : AppConfig := { global_ := {}
                             entries := [{ name := "a", primaryDomain := "a.test"
                                           dnsProvider := "aliyun", accountId := some "x" }] }
    cfg.validateRequiredSecrets (fun k => if k ∈ [aliyunKeyId "x", aliyunKeySecret "x"]
      then some "v" else none) = .ok () :=
  @validateRequiredSecrets_settles (fun _ => none) _ _ [aliyunKeyId "x", aliyunKeySecret "x"]
    (by decide) (fun _ h => by simp at h) (by decide) rfl

/-- An entry with a `${A}` reference and an `account_id`: `config-validate` reports `A`, and once
`A` is set it reports the account's two keys instead. -/
theorem validateRequiredSecrets_reports_account_keys_after_refs :
    let cfg : AppConfig := { global_ := {}
                             entries := [{ name := "a", primaryDomain := "a.test"
                                           dnsProvider := "aliyun", accountId := some "x"
                                           credentials := { accessKeyId := some "${A}" } }] }
    cfg.validateRequiredSecrets (fun _ => none) = .error (.missingEnvKeys ["A"]) ∧
      cfg.validateRequiredSecrets (fun k => if k = "A" then some "v" else none) =
        .error (.missingEnvKeys ["CERTMAN_ALIYUN_x_ACCESS_KEY_ID", "CERTMAN_ALIYUN_x_ACCESS_KEY_SECRET"]) :=
  ⟨rfl, rfl⟩

/-! ## Validator and resolver -/

/-- A credential text both recognisers of `${NAME}` read alike: `strip` leaves it unchanged and
it is not the degenerate `${}`, or it is no `${...}` reference even once stripped. -/
def Canonical (value : String) : Prop :=
  (strip value = value ∧ value ≠ "$\x7b\x7d") ∨
    (startswith (strip value) "$\x7b" && endswith (strip value) "\x7d") = false

instance (value : String) : Decidable (Canonical value) := inferInstanceAs (Decidable (_ ∨ _))

/-- `Canonical`, for a value that may be unset. -/
def CanonicalOpt : Option String → Prop
  | some v => Canonical v
  | none => True

instance : DecidablePred CanonicalOpt
  | some v => inferInstanceAs (Decidable (Canonical v))
  | none => isTrue trivial

/-- The aliyun entries on which the validator and the resolver apply the same precedence: no
`account_id`, or no explicit key, or both keys with a plain value among them. -/
def SamePrecedence (e : EntryConfig) : Prop :=
  e.account = "" ∨
    (truthy e.credentials.accessKeyId = false ∧ truthy e.credentials.accessKeySecret = false) ∨
    (truthy e.credentials.accessKeyId ∧ truthy e.credentials.accessKeySecret ∧
      (isPlain e.credentials.accessKeyId ∨ isPlain e.credentials.accessKeySecret))

instance : DecidablePred SamePrecedence := fun _ => inferInstanceAs (Decidable (_ ∨ _))

/-- Past `strip`, the resolver's test for a reference is `_is_env_ref`, except on `${}`. -/
theorem delimited_eq_isEnvRef {v : String} (hv : v ≠ "$\x7b\x7d") :
    (startswith v "$\x7b" && endswith v "\x7d") = isEnvRef v := by
  unfold isEnvRef
  cases hs : startswith v "$\x7b" <;> cases he : endswith v "\x7d" <;> simp only [Bool.and_true,
    Bool.and_false, Bool.true_and, Bool.false_and]
  obtain ⟨t, ht⟩ := List.isPrefixOf_iff_prefix.mp hs
  obtain ⟨u, hu⟩ := List.isSuffixOf_iff_suffix.mp he
  symm
  show decide (3 < v.toList.length) = true
  rw [← ht] at hu ⊢
  rcases t with _ | ⟨c, _ | ⟨d, t⟩⟩
  · simpa using congrArg List.getLast? hu
  · have hc : '}' = c := by simpa using congrArg List.getLast? hu
    exact absurd (String.ext (show v.toList = _ by rw [← ht, ← hc]; rfl)) hv
  · simp

/-- `strip` leaves a text that starts with `${` and ends with `}` as it is. -/
theorem strip_of_delimited {v : String} (hs : startswith v "$\x7b" = true)
    (he : endswith v "\x7d" = true) : strip v = v := by
  obtain ⟨t, ht⟩ := List.isPrefixOf_iff_prefix.mp hs
  obtain ⟨u, hu⟩ := List.isSuffixOf_iff_suffix.mp he
  have h₁ : v.toList.dropWhile isSpace = v.toList := by rw [← ht]; rfl
  have h₂ : v.toList.reverse.dropWhile isSpace = v.toList.reverse := by
    rw [← hu, List.reverse_append]; rfl
  simp only [strip, h₁, h₂, List.reverse_reverse]
  rfl

/-- On a canonical text, `_resolve_value` fails exactly where the validator reports a key. -/
theorem resolveValue_isOk_iff {env : Env} {v : String} (hc : Canonical v) :
    (resolveValue env v).isOk = true ↔ missingRef env (some v) = [] := by
  rcases hc with hc | hd
  swap
  · have hr : isEnvRef v = false := by
      cases hr : isEnvRef v
      · rfl
      · simp only [isEnvRef, Bool.and_eq_true] at hr
        rw [strip_of_delimited hr.1.1 hr.1.2, hr.1.1, hr.1.2] at hd
        cases hd
    simp [resolveValue, hd, missingRef, hr, Except.isOk, Except.toBool]
  simp only [resolveValue, missingRef, hc.1, delimited_eq_isEnvRef hc.2]
  cases hr : isEnvRef v
  · simp [Except.isOk, Except.toBool]
  · have hne : v ≠ "" := by rintro rfl; exact absurd hr (by decide)
    simp only [envRefKey, if_true, Bool.and_true, Bool.true_and]
    cases env (strip (slice2 v)) <;> simp only [truthy] <;> split_ifs <;>
      simp_all [Except.isOk, Except.toBool]

theorem missingRef_of_falsy {env : Env} {v : Option String} (h : truthy v = false) :
    missingRef env v = [] := by
  rcases truthy_eq_false_iff.mp h with rfl | rfl <;> rfl

theorem isPlain_of_falsy {v : Option String} (h : truthy v = false) : isPlain v = false := by
  rcases truthy_eq_false_iff.mp h with rfl | rfl <;> rfl

/-- The explicit branch of the resolver succeeds when both of its lookups do. -/
theorem isOk_pair {p q : Except CredentialError String} :
    (do let ak ← p; let sk ← q; pure (AliyunCredentials.mk ak sk) : Except _ _).isOk =
      (p.isOk && q.isOk) := by
  cases p <;> cases q <;> rfl

/-- `config-validate` accepts an aliyun entry exactly when the resolver of `new` and `renew`
resolves it, on the entries whose credential texts both read alike and to which both apply the
same precedence. -/
theorem requiredEnvKeys_eq_nil_iff_resolves (e : EntryConfig) (env : Env)
    (hp : lower e.dnsProvider = "aliyun") (ht : truthy e.credentials.apiToken = false)
    (hdom : e.account ≠ "" ∨
      (truthy e.credentials.accessKeyId = true ∧ truthy e.credentials.accessKeySecret = true))
    (hc : CanonicalOpt e.credentials.accessKeyId ∧ CanonicalOpt e.credentials.accessKeySecret)
    (hs : SamePrecedence e) :
    requiredEnvKeys e env = .ok [] ↔ (aliyunCredentialsForEntry env e).isOk = true := by
  have hrefs : e.missingRefs env =
      missingRef env e.credentials.accessKeyId ++ missingRef env e.credentials.accessKeySecret := by
    simp [EntryConfig.missingRefs, CredentialsConfig.values, missingRef_of_falsy ht]
  have hplain : e.hasPlain =
      (isPlain e.credentials.accessKeyId || isPlain e.credentials.accessKeySecret) := by
    simp [EntryConfig.hasPlain, CredentialsConfig.values, isPlain_of_falsy ht]
  by_cases hboth : truthy e.credentials.accessKeyId = true ∧
      truthy e.credentials.accessKeySecret = true
  · obtain ⟨⟨a, ha, ha'⟩, ⟨s, hs', hs''⟩⟩ := And.imp truthy_iff.mp truthy_iff.mp hboth
    have hpa : e.hasPlain = true ∨ e.account = "" := by
      rcases hs with h | h | ⟨-, -, h⟩
      · exact .inr h
      · simp [hboth] at h
      · exact .inl (by simpa [hplain] using h)
    rw [ha, hs'] at hc
    rw [requiredEnvKeys_of_plain_or_no_account hpa, aliyunCredentialsForEntry_explicit ha hs' ha' hs'',
      isOk_pair, Bool.and_eq_true, resolveValue_isOk_iff hc.1, resolveValue_isOk_iff hc.2, hrefs,
      ha, hs']
    simp
  · have hacc : e.account ≠ "" := hdom.resolve_right hboth
    obtain ⟨hna, hns⟩ : truthy e.credentials.accessKeyId = false ∧
        truthy e.credentials.accessKeySecret = false := by
      rcases hs with h | h | ⟨h₁, h₂, -⟩
      · exact absurd h hacc
      · exact h
      · exact absurd ⟨h₁, h₂⟩ hboth
    rw [requiredEnvKeys_of_account (by simp [hrefs, missingRef_of_falsy hna, missingRef_of_falsy hns])
      (by simp [hplain, isPlain_of_falsy hna, isPlain_of_falsy hns]) hacc, hp,
      aliyunCredentialsForEntry_account (.inl hna) hacc]
    simp [accountKeys, aliyunKeyId, aliyunKeySecret]

/-- A whitespace-padded reference: `config-validate` takes it for a plain value, the resolver
strips it and looks `A` up. -/
theorem padded_reference_validates_but_does_not_resolve :
    let e : EntryConfig := { name := "a", primaryDomain := "a.test", dnsProvider := "aliyun"
                             credentials := { accessKeyId := some " ${A} "
                                              accessKeySecret := some "s" } }
    lower e.dnsProvider = "aliyun" ∧ e.credentials.apiToken = none ∧
      truthy e.credentials.accessKeyId = true ∧ truthy e.credentials.accessKeySecret = true ∧
      requiredEnvKeys e (fun _ => none) = .ok [] ∧
      (aliyunCredentialsForEntry (fun _ => none) e).isOk = false :=
  ⟨by decide, rfl, rfl, rfl, rfl, rfl⟩

/-- A literal key beside an unset reference, with an `account_id`: both sides refuse it. -/
theorem literal_and_reference_with_account_agree :
    let e : EntryConfig := { name := "a", primaryDomain := "a.test", dnsProvider := "aliyun"
                             accountId := some "acct"
                             credentials := { accessKeyId := some "id"
                                              accessKeySecret := some "${S}" } }
    requiredEnvKeys e (fun _ => none) = .ok [] ↔
      (aliyunCredentialsForEntry (fun _ => none) e).isOk = true :=
  requiredEnvKeys_eq_nil_iff_resolves _ _ (by decide) (by decide) (by decide) (by decide)
    (by decide)

end Certman
