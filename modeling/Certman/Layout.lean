import Certman.Session

/-!
# Where a session writes

`_prepare_aliyun_credentials_ini` writes `run_dir / "credentials" / f"aliyun_{account_id or name}.ini"`
and `export` writes `output_dir / entry.name / <file>`. `pathlib` parses each text it appends: a `/`
in an entry's name or `account_id` adds parts, an absolute name replaces the directory, and a `..`
part leaves it on disk. For entries whose names and `account_id`s hold no `/`, and whose names
are not `..` (`PlainNames`), every file a session changes, certbot's apart, lies inside
`run/credentials` or inside `output` (`reachable_writes_inside`).
-/

namespace Certman

/-- `p` is `dir` followed by parts, none of them `..`: on disk it lies inside `dir`. -/
def Path.Inside (p dir : Path) : Prop :=
  p.root = dir.root ∧ ∃ rel, rel ≠ [] ∧ ".." ∉ rel ∧ p.parts = dir.parts ++ rel

/-- An entry whose name and `account_id` hold no `/`, and whose name is not `..`. -/
def EntryConfig.PlainNames (e : EntryConfig) : Prop :=
  '/' ∉ e.name.toList ∧ '/' ∉ e.account.toList ∧ e.name ≠ ".."

theorem relParts_ne_dotdot {s : String} (h : '/' ∉ s.toList) (hs : s ≠ "..") : ".." ∉ relParts s := by
  rw [relParts_of_slash_free h]
  split_ifs <;> simp [Ne.symm hs]

theorem credentialFile_inside (rt : Runtime) {e : EntryConfig} (h : e.PlainNames) :
    (credentialFile rt e).Inside (rt.paths.runDir.div "credentials") := by
  let x := if e.account != "" then e.account else e.name
  have hx : '/' ∉ x.toList := by
    simp only [x]
    split_ifs
    exacts [h.2.1, h.1]
  have hfile : '/' ∉ ("aliyun_" ++ x ++ ".ini").toList := by
    show '/' ∉ "aliyun_".toList ++ x.toList ++ ".ini".toList
    simp only [List.mem_append, not_or]
    exact ⟨⟨by decide, hx⟩, by decide⟩
  have hne : ¬("aliyun_" ++ x ++ ".ini" = "" ∨ "aliyun_" ++ x ++ ".ini" = ".") := by
    simp [String.ext_iff, String.append]
  refine ⟨rfl, ["aliyun_" ++ x ++ ".ini"], by simp, ?_, ?_⟩
  · simp [String.ext_iff, String.append]
  · rw [credentialFile, Path.div_of_slash_free hfile, relParts_of_slash_free hfile, if_neg hne]

theorem exportFile_inside (rt : Runtime) {e : EntryConfig} (h : e.PlainNames) {f : String}
    (hf : f ∈ exportFiles) : ((outDir rt e).div f).Inside rt.paths.outputDir := by
  have hff : f ≠ ".." := by revert f; decide
  rw [Path.div_part (exportFiles_isPart f hf), outDir, Path.div_of_slash_free h.1]
  exact ⟨rfl, relParts e.name ++ [f], by simp, by simp [relParts_ne_dotdot h.1 h.2.2, Ne.symm hff],
    List.append_assoc _ _ _⟩

/-- Over any session in which certbot changes only files of `A`, and every entry has `PlainNames`,
every file that changes is in `A`, or lies inside `run/credentials`, or inside `output`. -/
theorem reachable_writes_inside {rt : Runtime} {A : Path → Prop} {w₀ w : World}
    (h : Reachable rt A w₀ w) (hnames : ∀ e ∈ rt.config.entries, e.PlainNames) (p : Path)
    (hp : w.files p ≠ w₀.files p) :
    A p ∨ p.Inside (rt.paths.runDir.div "credentials") ∨ p.Inside rt.paths.outputDir := by
  rcases reachable_modifies_only h p hp with hA | ⟨e, he, f, hf, rfl, -⟩ | ⟨e, he, rfl, -⟩
  · exact .inl hA
  · exact .inr (.inr (exportFile_inside rt (hnames e he) hf))
  · exact .inr (.inl (credentialFile_inside rt (hnames e he)))

/-- One entry with plain names: a `new` and an `export --all` write inside `run/credentials` and
`output`. -/
theorem plain_session_writes_inside :
    let e : EntryConfig := { name := "a", primaryDomain := "a.test", dnsProvider := "aliyun"
                             credentials := { accessKeyId := some "id", accessKeySecret := some "secret" } }
    let rt : Runtime := ⟨runtimePaths "data" ⟨{}, [e]⟩, ⟨{}, [e]⟩, fun _ => none⟩
    let certbot : Certbot := fun _ files => ((0, "", ""), files)
    let w₀ : World := ⟨fun p => if p = (liveDir rt e).div "cert.pem" then some "pem" else none, []⟩
    let w := ((Command.export true none true).run certbot rt
      ((Command.new "a" false false false).run certbot rt w₀).2).2
    let p := (outDir rt e).div "cert.pem"
    w.files p ≠ w₀.files p ∧
      (False ∨ p.Inside (rt.paths.runDir.div "credentials") ∨ p.Inside rt.paths.outputDir) := by
  intro e rt certbot w₀ w p
  have hr : Reachable rt (fun _ => False) w₀ w :=
    .step certbot (fun _ _ _ h => h rfl) _ (.step certbot (fun _ _ _ h => h rfl) _ .init)
  have hp : w.files p ≠ w₀.files p := by decide
  exact ⟨hp, reachable_writes_inside hr (fun e' he' => by
    rw [List.mem_singleton.mp he']; exact ⟨by decide, by decide, by decide⟩) p hp⟩

/-- An entry named `/etc/ssl` exports into `/etc/ssl`, outside `output`. -/
example :
    let e : EntryConfig := { name := "/etc/ssl", primaryDomain := "a.test", dnsProvider := "aliyun" }
    let rt : Runtime := ⟨runtimePaths "data" ⟨{}, [e]⟩, ⟨{}, [e]⟩, fun _ => none⟩
    («export» rt true none true ⟨fun _ => some "pem", []⟩).2.files (Path.ofStr "/etc/ssl/cert.pem") =
      some "pem" := by
  decide

end Certman
