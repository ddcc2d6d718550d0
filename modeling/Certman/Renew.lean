import Certman.Cli

/-!
# The credential files of `renew --all`

`renew --all` first runs `_prepare_aliyun_credentials_ini` on every entry, whatever its provider,
and each run writes `run/credentials/aliyun_<account_id or name>.ini`. The loop is a store keyed by
that file name: once every entry resolves, each file holds the credentials of the last entry that
names it (`prepareAll_eq`), so an entry keeps its own credentials exactly when no later entry with
other credentials names the same file. An entry the aliyun resolver cannot resolve, of any
provider, stops the loop with its error.
-/

namespace Certman

/-- The last entry of a list whose credential file is `p`. -/
def lastWriter (rt : Runtime) (es : List EntryConfig) (p : Path) : Option EntryConfig :=
  (es.filter (credentialFile rt · = p)).getLast?

theorem lastWriter_cons (rt : Runtime) (e : EntryConfig) (es : List EntryConfig) (p : Path) :
    lastWriter rt (e :: es) p =
      if credentialFile rt e = p then some ((lastWriter rt es p).getD e) else lastWriter rt es p := by
  unfold lastWriter
  split_ifs with h
  · rw [List.filter_cons_of_pos (by simpa using h), List.getLast?_cons]
  · rw [List.filter_cons_of_neg (by simpa using h)]

theorem lastWriter_credentialFile_eq {rt : Runtime} {es : List EntryConfig} {p : Path}
    {e : EntryConfig} (h : lastWriter rt es p = some e) : e ∈ es ∧ credentialFile rt e = p := by
  simpa using List.mem_of_getLast?_eq_some h

theorem lastWriter_credentialFile_isSome (rt : Runtime) {es : List EntryConfig} {e : EntryConfig}
    (he : e ∈ es) : ∃ e', lastWriter rt es (credentialFile rt e) = some e' :=
  Option.ne_none_iff_exists'.mp fun h =>
    List.filter_eq_nil_iff.mp (List.getLast?_eq_none_iff.mp h) e he (by simp)

/-- The files after the loop: each credential file holds what the last entry naming it resolved
to, every other file is unchanged. -/
theorem prepareAll_eq (rt : Runtime) (creds : EntryConfig → AliyunCredentials) :
    ∀ (es : List EntryConfig) (w : World),
      (∀ e ∈ es, aliyunCredentialsForEntry rt.env e = .ok (creds e)) →
      prepareAll rt es w = (.ok (), ⟨fun p => match lastWriter rt es p with
        | some e => some (aliyunCredentialsIni (creds e))
        | none => w.files p, w.events⟩)
  | [], w, _ => rfl
  | e :: es, w, h => by
    have he := h e (List.mem_cons_self _ _)
    simp only [prepareAll, bind_apply, prepareAliyunCredentialsIni_ok he]
    rw [prepareAll_eq rt creds es _ fun x hx => h x (List.mem_cons_of_mem _ hx)]
    congr 2
    funext p
    rw [lastWriter_cons]
    by_cases hp : credentialFile rt e = p
    · subst hp
      cases lastWriter rt es (credentialFile rt e) <;> simp
    · cases lastWriter rt es p <;> simp [hp, Function.update_noteq (Ne.symm hp)]

/-- The credential-preparation loop of `renew --all` completes once every entry, of any provider,
resolves; afterwards each entry's file holds the credentials of the last entry naming that file,
and its own credentials whenever the entries naming one file resolve alike. -/
theorem renew_all_credentials (rt : Runtime) (w : World) (creds : EntryConfig → AliyunCredentials)
    (hres : ∀ e ∈ rt.config.entries, aliyunCredentialsForEntry rt.env e = .ok (creds e)) :
    ∃ w', prepareAll rt rt.config.entries w = (.ok (), w') ∧
      (∀ e ∈ rt.config.entries, ∃ e', lastWriter rt rt.config.entries (credentialFile rt e) = some e' ∧
        w'.files (credentialFile rt e) = some (aliyunCredentialsIni (creds e'))) ∧
      ((∀ e ∈ rt.config.entries, ∀ e' ∈ rt.config.entries,
          credentialFile rt e = credentialFile rt e' → creds e = creds e') →
        ∀ e ∈ rt.config.entries, w'.files (credentialFile rt e) = some (aliyunCredentialsIni (creds e))) := by
  refine ⟨_, prepareAll_eq rt creds _ w hres, fun e he => ?_, fun hsame e he => ?_⟩
  · obtain ⟨e', h'⟩ := lastWriter_credentialFile_isSome rt he
    exact ⟨e', h', by simp [h']⟩
  · obtain ⟨e', h'⟩ := lastWriter_credentialFile_isSome rt he
    obtain ⟨hmem, hfile⟩ := lastWriter_credentialFile_eq h'
    simp [h', hsame e' hmem e he hfile]

/-- An aliyun entry `a` with its own keys and the `account_id` `acc`. With a cloudflare entry that
has an `account_id`, the loop stops at the cloudflare one, since the aliyun resolver is run on it
as well; with a second aliyun entry of the same `account_id` and other keys, `a`'s credential
file ends up holding the second entry's keys. -/
theorem renew_all_stops_or_overwrites :
    let a : EntryConfig := { name := "a", primaryDomain := "a.test", dnsProvider := "aliyun"
                             accountId := some "acc"
                             credentials := { accessKeyId := some "id-a"
                                              accessKeySecret := some "secret-a" } }
    let b : EntryConfig := { a with name := "b", primaryDomain := "b.test"
                                    credentials := { accessKeyId := some "id-b"
                                                     accessKeySecret := some "secret-b" } }
    let c : EntryConfig := { name := "c", primaryDomain := "c.test", dnsProvider := "cloudflare"
                             accountId := some "other" }
    let rt (es : List EntryConfig) : Runtime := ⟨runtimePaths "data" ⟨{}, es⟩, ⟨{}, es⟩, fun _ => none⟩
    let w : World := ⟨fun _ => none, []⟩
    aliyunCredentialsForEntry (rt [a, c]).env a = .ok ⟨"id-a", "secret-a"⟩ ∧
      (prepareAll (rt [a, c]) [a, c] w).1 = .error (.credential (.missingAliyunEnvKeys "other")) ∧
      (prepareAll (rt [a, b]) [a, b] w).2.files (credentialFile (rt [a, b]) a) =
        some (aliyunCredentialsIni ⟨"id-b", "secret-b"⟩) :=
  ⟨rfl, rfl, by decide⟩

/-- Two aliyun entries with their own keys: each credential file holds its entry's keys. -/
theorem renew_all_two_entries :
    let a : EntryConfig := { name := "a", primaryDomain := "a.test", dnsProvider := "aliyun"
                             credentials := { accessKeyId := some "id-a"
                                              accessKeySecret := some "secret-a" } }
    let rt : Runtime := ⟨runtimePaths "data" ⟨{}, [a, { a with name := "b" }]⟩,
      ⟨{}, [a, { a with name := "b" }]⟩, fun _ => none⟩
    ∃ w', prepareAll rt rt.config.entries ⟨fun _ => none, []⟩ = (.ok (), w') ∧
      (∀ e ∈ rt.config.entries, ∃ e', lastWriter rt rt.config.entries (credentialFile rt e) = some e' ∧
        w'.files (credentialFile rt e) = some (aliyunCredentialsIni ⟨"id-a", "secret-a"⟩)) ∧
      ((∀ e ∈ rt.config.entries, ∀ e' ∈ rt.config.entries,
          credentialFile rt e = credentialFile rt e' →
            (⟨"id-a", "secret-a"⟩ : AliyunCredentials) = ⟨"id-a", "secret-a"⟩) →
        ∀ e ∈ rt.config.entries,
          w'.files (credentialFile rt e) = some (aliyunCredentialsIni ⟨"id-a", "secret-a"⟩)) :=
  renew_all_credentials _ _ (fun _ => ⟨"id-a", "secret-a"⟩) fun e he => by
    simp only [List.mem_cons, List.mem_singleton, List.not_mem_nil, or_false] at he
    rcases he with rfl | rfl <;> rfl

end Certman
