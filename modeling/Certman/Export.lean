import Certman.Cli

/-!
# What an export copies

`export_entry` copies each file of `_EXPORT_FILES` from an entry's lineage `live/<primary_domain>`
into its export directory `output/<name>`; `export` does so for every entry of the name it is
given, or for all entries. Each copy an export run makes goes from a selected entry's lineage
into the same entry's directory (`export_copies`), whether the run ends normally or raises. The
merge lets two entries share a name: `export --name` then copies both lineages into one directory,
the later over the earlier, while `new` and `renew` act on the first
(`export_duplicate_name_overwrites`). A run changes no file but the export files of the entries it
selects, and with `--no-overwrite` none that existed (`export_modifies_only`).
-/

namespace Certman

/-- The copies `export` may make for a list of targets: a file of `_EXPORT_FILES`, from a target's
lineage into that target's export directory. -/
def TargetCopy (rt : Runtime) (targets : List EntryConfig) : Event → Prop
  | .copy src dst => ∃ e ∈ targets, ∃ f ∈ exportFiles,
      src = (liveDir rt e).div f ∧ dst = (outDir rt e).div f
  | .certbot _ => False

/-! ## Steps that keep a relation between worlds -/

/-- A step whose world after is related by `R` to its world before, whatever its outcome. -/
def Keeps {α : Type} (R : World → World → Prop) (c : Cmd α) : Prop := ∀ w, R w (c w).2

section Keeps

variable {α β : Type} {R S : World → World → Prop}

theorem Keeps.pure (hR : ∀ w, R w w) (a : α) : Keeps R (pure a : Cmd α) := fun w => hR w

theorem Keeps.raise (hR : ∀ w, R w w) (err : CliError) : Keeps R (Certman.raise err : Cmd α) :=
  fun w => hR w

theorem Keeps.bind {x : Cmd α} {f : α → Cmd β} (hx : Keeps R x) (hf : ∀ a, Keeps R (f a))
    (hR : ∀ {w₁ w₂ w₃}, R w₁ w₂ → R w₂ w₃ → R w₁ w₃) : Keeps R (x >>= f) := by
  intro w
  have h := hx w
  rcases hxw : x w with ⟨_ | a, w'⟩ <;> rw [hxw] at h
  · simpa [hxw] using h
  · simpa [hxw] using hR h (hf a w')

theorem Keeps.mono {c : Cmd α} (h : Keeps R c) (hRS : ∀ {w w'}, R w w' → S w w') : Keeps S c :=
  fun w => hRS (h w)

end Keeps

/-- A property of steps that every `pure` has and every `>>=` of two such steps keeps. -/
structure StepProp (Φ : ∀ {α : Type}, Cmd α → Prop) : Prop where
  pure : ∀ {α : Type} (a : α), Φ (pure a : Cmd α)
  bind : ∀ {α β : Type} {x : Cmd α} {f : α → Cmd β}, Φ x → (∀ a, Φ (f a)) → Φ (x >>= f)

section StepProp

variable {Φ : ∀ {α : Type}, Cmd α → Prop}

/-- The loop of `export_entry` has every step property its copies have. -/
theorem StepProp.copyEach (hΦ : StepProp Φ) {live out : Path} {overwrite : Bool} :
    ∀ {names : List String}, (∀ f ∈ names, Φ (copyOne live out overwrite f)) →
      Φ (copyEach live out overwrite names)
  | [], _ => hΦ.pure _
  | f :: _, h => hΦ.bind (h f (List.mem_cons_self _ _)) fun _ =>
      hΦ.bind (hΦ.copyEach fun g hg => h g (List.mem_cons_of_mem _ hg)) fun _ => hΦ.pure _

/-- The loop of `export` has every step property the copies of its targets have. -/
theorem StepProp.exportEach (hΦ : StepProp Φ) {rt : Runtime} {overwrite : Bool} :
    ∀ {targets : List EntryConfig},
      (∀ e ∈ targets, ∀ f ∈ exportFiles, Φ (copyOne (liveDir rt e) (outDir rt e) overwrite f)) →
        Φ (exportEach rt overwrite targets)
  | [], _ => hΦ.pure _
  | e :: _, h => hΦ.bind (hΦ.copyEach (h e (List.mem_cons_self _ _))) fun _ =>
      hΦ.exportEach fun e' he' => h e' (List.mem_cons_of_mem _ he')

end StepProp

/-- The events added between two worlds, each satisfying `P`. -/
def AppendsOnly (P : Event → Prop) (w w' : World) : Prop :=
  ∃ evs, w'.events = w.events ++ evs ∧ ∀ ev ∈ evs, P ev

section AppendsOnly

variable {P Q : Event → Prop} {w₁ w₂ w₃ : World}

theorem AppendsOnly.refl (w : World) : AppendsOnly P w w := ⟨[], by simp, by simp⟩

theorem AppendsOnly.trans : AppendsOnly P w₁ w₂ → AppendsOnly P w₂ w₃ → AppendsOnly P w₁ w₃
  | ⟨evs₁, h₁, hp₁⟩, ⟨evs₂, h₂, hp₂⟩ => ⟨evs₁ ++ evs₂, by rw [h₂, h₁, List.append_assoc],
      fun ev hev => (List.mem_append.mp hev).elim (hp₁ ev) (hp₂ ev)⟩

theorem AppendsOnly.mono (hpq : ∀ ev, P ev → Q ev) : AppendsOnly P w₁ w₂ → AppendsOnly Q w₁ w₂
  | ⟨evs, h₁, h₂⟩ => ⟨evs, h₁, fun ev hev => hpq ev (h₂ ev hev)⟩

end AppendsOnly

/-! ## One entry -/

theorem copyOne_appends (live out : Path) (overwrite : Bool) (f : String) :
    Keeps (AppendsOnly (· = .copy (live.div f) (out.div f))) (copyOne live out overwrite f) := by
  intro w
  simp only [copyOne]
  split_ifs <;> simp [AppendsOnly]

theorem copyEach_appends (live out : Path) (overwrite : Bool) : ∀ names : List String,
    Keeps (AppendsOnly fun ev => ∃ f ∈ names, ev = .copy (live.div f) (out.div f))
      (copyEach live out overwrite names)
  | [] => Keeps.pure AppendsOnly.refl _
  | f :: names => by
    refine Keeps.bind ((copyOne_appends live out overwrite f).mono (.mono ?_)) (fun _ =>
      Keeps.bind ((copyEach_appends live out overwrite names).mono (.mono ?_))
        (fun _ => Keeps.pure AppendsOnly.refl _) AppendsOnly.trans) AppendsOnly.trans
    · rintro ev rfl; exact ⟨f, List.mem_cons_self _ _, rfl⟩
    · rintro ev ⟨g, hg, rfl⟩; exact ⟨g, List.mem_cons_of_mem _ hg, rfl⟩

theorem exportEach_appends (rt : Runtime) (overwrite : Bool) : ∀ targets : List EntryConfig,
    Keeps (AppendsOnly (TargetCopy rt targets)) (exportEach rt overwrite targets)
  | [] => Keeps.pure AppendsOnly.refl _
  | e :: es => by
    refine Keeps.bind ((copyEach_appends _ _ overwrite exportFiles).mono (.mono ?_))
      (fun _ => (exportEach_appends rt overwrite es).mono (.mono ?_)) AppendsOnly.trans
    · rintro ev ⟨f, hf, rfl⟩; exact ⟨e, List.mem_cons_self _ _, f, hf, rfl, rfl⟩
    · rintro (src | dst) h
      · exact h.elim
      · obtain ⟨e', he', f, hf, h⟩ := h
        exact ⟨e', List.mem_cons_of_mem _ he', f, hf, h⟩

/-- The entries `export` selects: those of the given name, or all of them. -/
def exportTargets (rt : Runtime) (name : Option String) : List EntryConfig :=
  if truthy name then named rt (name.getD "") else rt.config.entries

theorem exportTargets_some {rt : Runtime} {n : String} (hne : n ≠ "") :
    exportTargets rt (some n) = named rt n := by
  simp [exportTargets, hne]

/-- An export run raises before copying anything, or runs the loop over its targets. -/
theorem export_cases (rt : Runtime) (all : Bool) (name : Option String) (overwrite : Bool) :
    (∃ err, «export» rt all name overwrite = raise err) ∨
      «export» rt all name overwrite = exportEach rt overwrite (exportTargets rt name) := by
  unfold «export» exportTargets
  by_cases h₁ : (!all && !truthy name) = true
  · exact .inl ⟨_, if_pos h₁⟩
  rw [if_neg h₁]
  by_cases h₂ : truthy name = true
  · simp only [if_pos h₂]
    cases named rt (name.getD "") with
    | nil => exact .inl ⟨_, rfl⟩
    | cons e es => exact .inr rfl
  · rw [if_neg h₂, if_neg h₂]
    exact .inr rfl

/-- Every copy of an export run goes from a selected entry's lineage into that entry's export
directory, whether the run ends normally or raises. -/
theorem export_copies (rt : Runtime) (all : Bool) (name : Option String) (overwrite : Bool) :
    Keeps (AppendsOnly (TargetCopy rt (exportTargets rt name))) («export» rt all name overwrite) := by
  rcases export_cases rt all name overwrite with ⟨err, h⟩ | h <;> rw [h]
  · exact Keeps.raise AppendsOnly.refl err
  · exact exportEach_appends rt overwrite _

theorem exportFiles_isPart : ∀ f ∈ exportFiles, IsPart f := by decide

theorem exportTargets_subset (rt : Runtime) (name : Option String) :
    ∀ e ∈ exportTargets rt name, e ∈ rt.config.entries := by
  unfold exportTargets named
  split_ifs
  · exact fun e he => (List.mem_filter.mp he).1
  · exact fun e he => he

/-- Two entries named `a` with lineages `p1.test` and `p2.test`: `export --name a` copies both
`cert.pem`s into `output/a`, and the second stays, while `new --name a` and `renew --name a` act on
the first match. Distinct names collide too: an entry named `a/` exports into `output/a`. -/
theorem export_duplicate_name_overwrites :
    let e₁ : EntryConfig := { name := "a", primaryDomain := "p1.test", dnsProvider := "aliyun" }
    let e₂ : EntryConfig := { name := "a", primaryDomain := "p2.test", dnsProvider := "aliyun" }
    let rt : Runtime := ⟨runtimePaths "data" ⟨{}, [e₁, e₂]⟩, ⟨{}, [e₁, e₂]⟩, fun _ => none⟩
    let cert (e : EntryConfig) := (liveDir rt e).div "cert.pem"
    let w : World := ⟨fun p => if p = cert e₁ then some "pem1" else
      if p = cert e₂ then some "pem2" else none, []⟩
    («export» rt false (some "a") true w).2.events =
        [.copy (cert e₁) ((outDir rt e₁).div "cert.pem"), .copy (cert e₂) ((outDir rt e₂).div "cert.pem")] ∧
      outDir rt e₁ = outDir rt e₂ ∧ outDir rt { e₂ with name := "a/" } = outDir rt e₁ ∧
      cert e₁ ≠ cert e₂ ∧ named rt "a" = [e₁, e₂] ∧
      w.files (cert e₁) = some "pem1" ∧
      («export» rt false (some "a") true w).2.files ((outDir rt e₁).div "cert.pem") = some "pem2" := by
  decide

/-! ## What an export may change -/

/-- Every file that differs between two worlds satisfies `Q`, given its content before. -/
def ModifiesOnly (Q : Path → Option String → Prop) (w w' : World) : Prop :=
  ∀ p, w'.files p ≠ w.files p → Q p (w.files p)

section ModifiesOnly

variable {Q Q' : Path → Option String → Prop} {w₁ w₂ w₃ : World}

theorem ModifiesOnly.refl (w : World) : ModifiesOnly Q w w := fun _ h => absurd rfl h

theorem ModifiesOnly.trans (h₁ : ModifiesOnly Q w₁ w₂) (h₂ : ModifiesOnly Q w₂ w₃) :
    ModifiesOnly Q w₁ w₃ := fun p hp => by
  by_cases h : w₂.files p = w₁.files p
  · exact h ▸ h₂ p (h ▸ hp)
  · exact h₁ p h

theorem ModifiesOnly.mono (hq : ∀ p v, Q p v → Q' p v) (h : ModifiesOnly Q w₁ w₂) :
    ModifiesOnly Q' w₁ w₂ := fun p hp => hq _ _ (h p hp)

end ModifiesOnly

/-- One copy writes only its destination, and without `overwrite` only one that did not exist. -/
theorem copyOne_confined (live out : Path) (overwrite : Bool) (f : String) :
    Keeps (ModifiesOnly fun p v => p = out.div f ∧ (overwrite = false → v = none))
      (copyOne live out overwrite f) := by
  intro w p hp
  simp only [copyOne] at hp
  split_ifs at hp with h₁ h₂ h₃ <;> try exact absurd rfl hp
  by_cases hpd : p = out.div f
  · subst hpd
    refine ⟨rfl, fun ho => ?_⟩
    simpa [ho] using h₂
  · simp [Function.update_noteq hpd] at hp

theorem copyEach_confined (live out : Path) (overwrite : Bool) : ∀ names : List String,
    Keeps (ModifiesOnly fun p v => ∃ f ∈ names, p = out.div f ∧ (overwrite = false → v = none))
      (copyEach live out overwrite names)
  | [] => Keeps.pure ModifiesOnly.refl _
  | f :: names => by
    refine Keeps.bind ((copyOne_confined live out overwrite f).mono (.mono ?_)) (fun _ =>
      Keeps.bind ((copyEach_confined live out overwrite names).mono (.mono ?_))
        (fun _ => Keeps.pure ModifiesOnly.refl _) ModifiesOnly.trans) ModifiesOnly.trans
    · exact fun _ _ h => ⟨f, List.mem_cons_self _ _, h⟩
    · exact fun _ _ ⟨g, hg, h⟩ => ⟨g, List.mem_cons_of_mem _ hg, h⟩

theorem exportEach_confined (rt : Runtime) (overwrite : Bool) : ∀ targets : List EntryConfig,
    Keeps (ModifiesOnly fun p v => ∃ e ∈ targets, ∃ f ∈ exportFiles,
      p = (outDir rt e).div f ∧ (overwrite = false → v = none)) (exportEach rt overwrite targets)
  | [] => Keeps.pure ModifiesOnly.refl _
  | e :: es => by
    refine Keeps.bind ((copyEach_confined _ _ overwrite exportFiles).mono (.mono ?_))
      (fun _ => (exportEach_confined rt overwrite es).mono (.mono ?_)) ModifiesOnly.trans
    · exact fun _ _ h => ⟨e, List.mem_cons_self _ _, h⟩
    · exact fun _ _ ⟨e', he', h⟩ => ⟨e', List.mem_cons_of_mem _ he', h⟩

/-- An export run changes only the export files of the entries it selects, whether it ends
normally or raises, and with `--no-overwrite` only files that did not exist before it. -/
theorem export_modifies_only (rt : Runtime) (all : Bool) (name : Option String) (overwrite : Bool)
    (w : World) (p : Path) (hp : («export» rt all name overwrite w).2.files p ≠ w.files p) :
    (∃ e ∈ exportTargets rt name, ∃ f ∈ exportFiles, p = (outDir rt e).div f) ∧
      (overwrite = false → w.files p = none) := by
  have hc : Keeps (ModifiesOnly fun p v => ∃ e ∈ exportTargets rt name, ∃ f ∈ exportFiles,
      p = (outDir rt e).div f ∧ (overwrite = false → v = none)) («export» rt all name overwrite) := by
    rcases export_cases rt all name overwrite with ⟨err, h⟩ | h <;> rw [h]
    · exact Keeps.raise ModifiesOnly.refl err
    · exact exportEach_confined rt overwrite _
  obtain ⟨e, he, f, hf, hpf, hnew⟩ := hc w p hp
  exact ⟨⟨e, he, f, hf, hpf⟩, hnew⟩

/-- `export --all --no-overwrite` on one entry with a certificate writes its `cert.pem` copy. -/
theorem export_no_overwrite_writes_new_file :
    let e : EntryConfig := { name := "a", primaryDomain := "a.test", dnsProvider := "aliyun" }
    let rt : Runtime := ⟨runtimePaths "data" ⟨{}, [e]⟩, ⟨{}, [e]⟩, fun _ => none⟩
    let w : World := ⟨fun p => if p = (liveDir rt e).div "cert.pem" then some "pem" else none, []⟩
    let p := (outDir rt e).div "cert.pem"
    («export» rt true none false w).2.files p ≠ w.files p ∧
      (∃ e' ∈ exportTargets rt none, ∃ f ∈ exportFiles, p = (outDir rt e').div f) ∧
      (false = false → w.files p = none) := by
  intro e rt w p
  have hp : («export» rt true none false w).2.files p ≠ w.files p := by decide
  exact ⟨hp, export_modifies_only rt true none false w p hp⟩

end Certman
