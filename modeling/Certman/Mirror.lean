import Certman.Session

/-!
# What an export leaves

`export_entry` copies `live/<primary_domain>/<file>` to `output/<name>/<file>` for each file of
`_EXPORT_FILES` whose source exists, and without `--overwrite` only to a destination that does not
exist yet. As long as no export file of the selected entries is also a file of their lineages
(`Separate`), a run never reads what it wrote: the files it leaves are a fold of `copyFiles` over
its copies (`export_files`), and in closed form each destination holds the source of the last
copy into it whose source exists (`foldl_copyFiles_overwrite`), or, without `--overwrite`, keeps
what it held and otherwise takes the source of the first such copy (`foldl_copyFiles_keep`).

So an export mirrors each selected entry's lineage into its export directory once the entries
that share an export directory share the lineage (`export_mirrors`): with `--overwrite` a file of
the lineage replaces its copy, and a copy whose source is gone stays; without, a copy that exists
is kept. Running the same export again with `--overwrite` leaves the files as they were, and
with `--no-overwrite` changes nothing at all (`export_twice`).
-/

namespace Certman

/-! ## One run as a fold -/

/-- What one copy of `export_entry`, from `q.1` to `q.2`, leaves in the files. -/
def copyFiles (overwrite : Bool) (files : FileStore) (q : Path × Path) : FileStore :=
  if (files q.1).isNone then files
  else if (files q.2).isSome && !overwrite then files
  else Function.update files q.2 (files q.1)

theorem copyFiles_apply (overwrite : Bool) (files : FileStore) (q : Path × Path) (p : Path) :
    copyFiles overwrite files q p =
      if p = q.2 ∧ (files q.1).isSome ∧ ((files q.2).isNone || overwrite) then files q.1
      else files p := by
  unfold copyFiles
  by_cases hp : p = q.2
  · subst hp
    cases files q.1 <;> cases h : files q.2 <;> cases overwrite <;> simp [h, ite_apply]
  · simp [hp, ite_apply, Function.update_noteq hp]

/-- The copies an export of `targets` tries, in order. -/
def exportPairs (rt : Runtime) (targets : List EntryConfig) : List (Path × Path) :=
  targets.flatMap fun e => exportFiles.map fun f => ((liveDir rt e).div f, (outDir rt e).div f)

@[simp] theorem exportPairs_nil (rt : Runtime) : exportPairs rt [] = [] := rfl

@[simp] theorem exportPairs_cons (rt : Runtime) (e : EntryConfig) (es : List EntryConfig) :
    exportPairs rt (e :: es) =
      exportFiles.map (fun f => ((liveDir rt e).div f, (outDir rt e).div f)) ++ exportPairs rt es :=
  List.flatMap_cons _ _ _

theorem mem_exportPairs {rt : Runtime} {targets : List EntryConfig} {q : Path × Path} :
    q ∈ exportPairs rt targets ↔
      ∃ e ∈ targets, ∃ f ∈ exportFiles, q = ((liveDir rt e).div f, (outDir rt e).div f) := by
  simp [exportPairs, eq_comm]

/-- No export file of the targets is a file of their lineages. -/
def Separate (rt : Runtime) (targets : List EntryConfig) : Prop :=
  ∀ e ∈ targets, ∀ e' ∈ targets, ∀ f ∈ exportFiles, ∀ f' ∈ exportFiles,
    (outDir rt e).div f ≠ (liveDir rt e').div f'

instance (rt : Runtime) (targets : List EntryConfig) : Decidable (Separate rt targets) :=
  inferInstanceAs (Decidable (∀ e ∈ targets, ∀ e' ∈ targets, ∀ f ∈ exportFiles, ∀ f' ∈ exportFiles,
    (outDir rt e).div f ≠ (liveDir rt e').div f'))

theorem Separate.pairs {rt : Runtime} {targets : List EntryConfig} (h : Separate rt targets) :
    ∀ q ∈ exportPairs rt targets, ∀ q' ∈ exportPairs rt targets, q.2 ≠ q'.1 := by
  intro q hq q' hq'
  obtain ⟨e, he, f, hf, rfl⟩ := mem_exportPairs.mp hq
  obtain ⟨e', he', f', hf', rfl⟩ := mem_exportPairs.mp hq'
  exact h e he e' he' f hf f' hf'

theorem Separate.distinct {rt : Runtime} {targets : List EntryConfig} (h : Separate rt targets) :
    ∀ e ∈ targets, ∀ f ∈ exportFiles, (liveDir rt e).div f ≠ (outDir rt e).div f :=
  fun e he f hf => (h e he e he f hf f hf).symm

theorem bind_apply_of_ok {α β : Type} {x : Cmd α} {f : α → Cmd β} {w : World} {a : α}
    (h : (x w).1 = .ok a) : (x >>= f) w = f a (x w).2 := by
  rw [bind_apply]
  rcases hx : x w with ⟨_ | b, w'⟩ <;> rw [hx] at h <;> cases h
  rfl

theorem copyOne_files {live out : Path} {overwrite : Bool} {f : String} (h : live.div f ≠ out.div f)
    (w : World) :
    (copyOne live out overwrite f w).2.files = copyFiles overwrite w.files (live.div f, out.div f) := by
  simp only [copyOne, copyFiles]
  split_ifs <;> rfl

theorem copyEach_files {live out : Path} {overwrite : Bool} : ∀ {names : List String},
    (∀ f ∈ names, live.div f ≠ out.div f) → ∀ w : World,
      (copyEach live out overwrite names w).2.files =
        (names.map fun f => (live.div f, out.div f)).foldl (copyFiles overwrite) w.files
  | [], _, _ => rfl
  | f :: names, h, w => by
    have hf := h f (List.mem_cons_self _ _)
    have hs : ∀ g ∈ names, live.div g ≠ out.div g := fun g hg => h g (List.mem_cons_of_mem _ hg)
    obtain ⟨c, hc⟩ := @copyOne_neverRaises live out overwrite f hf w
    obtain ⟨r, hr⟩ := @copyEach_neverRaises live out overwrite names hs (copyOne live out overwrite f w).2
    simp only [copyEach, bind_apply_of_ok hc, bind_apply_of_ok hr, pure_apply]
    rw [copyEach_files hs, copyOne_files hf]
    rfl

theorem exportEach_files {rt : Runtime} {overwrite : Bool} : ∀ {targets : List EntryConfig},
    (∀ e ∈ targets, ∀ f ∈ exportFiles, (liveDir rt e).div f ≠ (outDir rt e).div f) → ∀ w : World,
      (exportEach rt overwrite targets w).2.files =
        (exportPairs rt targets).foldl (copyFiles overwrite) w.files
  | [], _, _ => rfl
  | e :: es, h, w => by
    have he := h e (List.mem_cons_self _ _)
    obtain ⟨c, hc⟩ := @copyEach_neverRaises _ _ overwrite _ he w
    simp only [exportEach, exportEntry, bind_apply_of_ok hc]
    rw [exportEach_files (fun e' he' => h e' (List.mem_cons_of_mem _ he')), copyEach_files he,
      exportPairs_cons, List.foldl_append]

/-- An export that selects entries leaves the world its loop leaves; one asked for neither
`--all` nor a name changes nothing. -/
theorem export_world (rt : Runtime) (all : Bool) (name : Option String) (overwrite : Bool) (w : World) :
    («export» rt all name overwrite w).2 =
      if all = true ∨ truthy name = true then (exportEach rt overwrite (exportTargets rt name) w).2
      else w := by
  unfold «export» exportTargets
  cases hn : truthy name <;> cases all <;> simp only [hn, Bool.not_false, Bool.not_true,
    Bool.and_true, Bool.and_false, Bool.false_eq_true, or_true, or_false, if_true, if_false,
    raise_apply, Bool.true_and]
  all_goals rcases named rt (name.getD "") with _ | ⟨e, es⟩ <;> rfl

/-! ## The closed forms -/

/-- The copies into `p` whose source exists. -/
def copiesInto (files : FileStore) (pairs : List (Path × Path)) (p : Path) : List (Path × Path) :=
  pairs.filter fun q => q.2 = p ∧ (files q.1).isSome

section CopiesInto

variable {files : FileStore} {pairs : List (Path × Path)} {p : Path} {q : Path × Path}

theorem mem_copiesInto : q ∈ copiesInto files pairs p ↔ q ∈ pairs ∧ q.2 = p ∧ (files q.1).isSome := by
  simp [copiesInto]

theorem copiesInto_concat (files : FileStore) (pairs : List (Path × Path)) (q : Path × Path) (p : Path) :
    copiesInto files (pairs ++ [q]) p =
      copiesInto files pairs p ++ if q.2 = p ∧ (files q.1).isSome then [q] else [] := by
  unfold copiesInto
  split_ifs with h <;> simp [List.filter_append, h]

theorem copiesInto_eq_nil (h : ∀ q ∈ pairs, q.2 ≠ p) : copiesInto files pairs p = [] :=
  List.filter_eq_nil_iff.mpr fun q hq hq' => h q hq (of_decide_eq_true hq').1

theorem copiesInto_congr {files' : FileStore} (h : ∀ q ∈ pairs, files' q.1 = files q.1) :
    copiesInto files' pairs p = copiesInto files pairs p :=
  List.filter_congr fun q hq => by rw [h q hq]

/-- Every copy into `p` from `s`, and one of them in the list: the copies into `p` whose source
exists are those of `s`, when it exists. -/
theorem copiesInto_single_source {s : Path} (hs : ∀ q ∈ pairs, q.2 = p → q.1 = s)
    (hmem : (s, p) ∈ pairs) :
    ((files s).isSome → (copiesInto files pairs p).getLast?.map (·.1) = some s ∧
      (copiesInto files pairs p).head?.map (·.1) = some s) ∧
    ((files s).isNone → copiesInto files pairs p = []) := by
  have hall : ∀ q ∈ copiesInto files pairs p, q.1 = s := fun q hq =>
    hs q (mem_copiesInto.mp hq).1 (mem_copiesInto.mp hq).2.1
  refine ⟨fun hsome => ?_, fun hnone => List.filter_eq_nil_iff.mpr fun q hq hq' => ?_⟩
  · have hne : copiesInto files pairs p ≠ [] :=
      List.ne_nil_of_mem (mem_copiesInto.mpr ⟨hmem, rfl, hsome⟩)
    rw [List.getLast?_eq_getLast _ hne, List.head?_eq_head hne]
    exact ⟨congrArg some (hall _ (List.getLast_mem hne)), congrArg some (hall _ (List.head_mem hne))⟩
  · simp only [decide_eq_true_eq] at hq'
    rw [hs q hq hq'.1] at hq'
    simp_all

end CopiesInto

/-- With `--overwrite`, and no destination among the sources, a destination holds the source of
the last copy into it whose source exists, and every other path keeps its content. -/
theorem foldl_copyFiles_overwrite (files : FileStore) (pairs : List (Path × Path))
    (hsep : ∀ q ∈ pairs, ∀ q' ∈ pairs, q.2 ≠ q'.1) (p : Path) :
    pairs.foldl (copyFiles true) files p =
      ((copiesInto files pairs p).getLast?).elim (files p) fun q => files q.1 := by
  induction pairs using List.reverseRecOn generalizing p with
  | nil => rfl
  | append_singleton qs q ih =>
    have hsep' : ∀ a ∈ qs, ∀ b ∈ qs, a.2 ≠ b.1 := fun a ha b hb =>
      hsep a (List.mem_append_left _ ha) b (List.mem_append_left _ hb)
    have hsrc : qs.foldl (copyFiles true) files q.1 = files q.1 := by
      rw [ih hsep', copiesInto_eq_nil fun a ha => hsep a (List.mem_append_left _ ha) q (by simp)]
      rfl
    rw [List.foldl_append, List.foldl_cons, List.foldl_nil, copyFiles_apply, hsrc, copiesInto_concat]
    by_cases h : q.2 = p ∧ (files q.1).isSome = true
    · obtain ⟨rfl, hs⟩ := h
      simp [hs]
    · rw [if_neg h, List.append_nil, if_neg fun ⟨hp, hs, _⟩ => h ⟨hp.symm, hs⟩, ih hsep']

/-- Without `--overwrite`, and no destination among the sources, a path that holds a file keeps
it, and an empty destination takes the source of the first copy into it whose source exists. -/
theorem foldl_copyFiles_keep (files : FileStore) (pairs : List (Path × Path))
    (hsep : ∀ q ∈ pairs, ∀ q' ∈ pairs, q.2 ≠ q'.1) (p : Path) :
    pairs.foldl (copyFiles false) files p =
      (files p).or (((copiesInto files pairs p).head?).bind fun q => files q.1) := by
  induction pairs using List.reverseRecOn generalizing p with
  | nil => simp [copiesInto]
  | append_singleton qs q ih =>
    have hsep' : ∀ a ∈ qs, ∀ b ∈ qs, a.2 ≠ b.1 := fun a ha b hb =>
      hsep a (List.mem_append_left _ ha) b (List.mem_append_left _ hb)
    have hsrc : qs.foldl (copyFiles false) files q.1 = files q.1 := by
      rw [ih hsep', copiesInto_eq_nil fun a ha => hsep a (List.mem_append_left _ ha) q (by simp)]
      cases files q.1 <;> rfl
    rw [List.foldl_append, List.foldl_cons, List.foldl_nil, copyFiles_apply, hsrc, copiesInto_concat,
      List.head?_append]
    simp only [ih hsep']
    by_cases h : q.2 = p ∧ (files q.1).isSome = true
    · obtain ⟨rfl, hs⟩ := h
      rcases hh : (copiesInto files qs q.2).head? with _ | a
      · cases files q.2 <;> simp [hs]
      · obtain ⟨v, hv⟩ := Option.isSome_iff_exists.mp
          (mem_copiesInto.mp (List.mem_of_mem_head? hh)).2.2
        simp [hs, hv]
    · rw [if_neg h, List.head?_nil, Option.or_none, if_neg fun ⟨hp, hs, _⟩ => h ⟨hp.symm, hs⟩]

section Run

variable {files : FileStore} {pairs : List (Path × Path)}
  (hsep : ∀ q ∈ pairs, ∀ q' ∈ pairs, q.2 ≠ q'.1)
include hsep

/-- A run leaves its sources as they were. -/
theorem foldl_copyFiles_source (overwrite : Bool) {q : Path × Path} (hq : q ∈ pairs) :
    pairs.foldl (copyFiles overwrite) files q.1 = files q.1 := by
  have hnil := @copiesInto_eq_nil files pairs q.1 fun a ha => hsep a ha q hq
  cases overwrite
  · rw [foldl_copyFiles_keep files pairs hsep, hnil]
    cases files q.1 <;> rfl
  · rw [foldl_copyFiles_overwrite files pairs hsep, hnil]
    rfl

/-- After a run, the destination of a copy whose source exists holds a file. -/
theorem foldl_copyFiles_filled (overwrite : Bool) {q : Path × Path} (hq : q ∈ pairs)
    (hs : (files q.1).isSome) : (pairs.foldl (copyFiles overwrite) files q.2).isSome := by
  have hne : copiesInto files pairs q.2 ≠ [] := List.ne_nil_of_mem (mem_copiesInto.mpr ⟨hq, rfl, hs⟩)
  cases overwrite
  · rw [foldl_copyFiles_keep files pairs hsep, List.head?_eq_head hne]
    obtain ⟨v, hv⟩ := Option.isSome_iff_exists.mp (mem_copiesInto.mp (List.head_mem hne)).2.2
    cases files q.2 <;> simp [hv]
  · rw [foldl_copyFiles_overwrite files pairs hsep, List.getLast?_eq_getLast _ hne]
    exact (mem_copiesInto.mp (List.getLast_mem hne)).2.2

/-- A second run with `--overwrite` writes what the first wrote. -/
theorem foldl_copyFiles_overwrite_idem :
    pairs.foldl (copyFiles true) (pairs.foldl (copyFiles true) files) =
      pairs.foldl (copyFiles true) files := by
  funext p
  have hcongr : copiesInto (pairs.foldl (copyFiles true) files) pairs p = copiesInto files pairs p :=
    copiesInto_congr fun q hq => foldl_copyFiles_source hsep true hq
  rw [foldl_copyFiles_overwrite _ _ hsep p, hcongr, foldl_copyFiles_overwrite files _ hsep p]
  rcases h : (copiesInto files pairs p).getLast? with _ | q
  · rfl
  · exact foldl_copyFiles_source hsep true (mem_copiesInto.mp (List.mem_of_getLast?_eq_some h)).1

end Run

/-! ## An export run -/

/-- The files an export leaves, when no export file of its targets is a file of their lineages. -/
theorem export_files (rt : Runtime) (all : Bool) (name : Option String) (overwrite : Bool) (w : World)
    (hsel : all = true ∨ truthy name = true) (hsep : Separate rt (exportTargets rt name)) :
    («export» rt all name overwrite w).2.files =
      (exportPairs rt (exportTargets rt name)).foldl (copyFiles overwrite) w.files := by
  rw [export_world, if_pos hsel, exportEach_files hsep.distinct]

/-- An export mirrors each selected entry's lineage into its export directory, when no export
file is a file of a lineage and the entries sharing an export directory share the lineage: with
`--overwrite` each file of the lineage replaces its copy and a copy whose source is absent stays;
without, a copy that exists stays and a missing one is taken from the lineage. -/
theorem export_mirrors (rt : Runtime) (all : Bool) (name : Option String) (overwrite : Bool)
    (w : World) (hsel : all = true ∨ truthy name = true) (hsep : Separate rt (exportTargets rt name))
    (hdirs : ∀ e ∈ exportTargets rt name, ∀ e' ∈ exportTargets rt name,
      outDir rt e = outDir rt e' → e.primaryDomain = e'.primaryDomain)
    (e : EntryConfig) (he : e ∈ exportTargets rt name) (f : String) (hf : f ∈ exportFiles) :
    («export» rt all name overwrite w).2.files ((outDir rt e).div f) =
      if overwrite then (w.files ((liveDir rt e).div f)).or (w.files ((outDir rt e).div f))
      else (w.files ((outDir rt e).div f)).or (w.files ((liveDir rt e).div f)) := by
  have hs : ∀ q ∈ exportPairs rt (exportTargets rt name), q.2 = (outDir rt e).div f →
      q.1 = (liveDir rt e).div f := by
    intro q hq hq2
    obtain ⟨e', he', f', hf', hqe⟩ := mem_exportPairs.mp hq
    rw [hqe] at hq2 ⊢
    obtain ⟨hout, rfl⟩ := Path.div_part_inj (exportFiles_isPart f' hf') (exportFiles_isPart f hf) hq2
    simp [liveDir, hdirs e' he' e he hout]
  have hmem : ((liveDir rt e).div f, (outDir rt e).div f) ∈ exportPairs rt (exportTargets rt name) :=
    mem_exportPairs.mpr ⟨e, he, f, hf, rfl⟩
  have hcases := @copiesInto_single_source w.files _ _ _ hs hmem
  rw [export_files rt all name overwrite w hsel hsep]
  cases overwrite with
  | true =>
    rw [foldl_copyFiles_overwrite _ _ hsep.pairs, if_pos rfl]
    rcases hsrc : w.files ((liveDir rt e).div f) with _ | v
    · simp [hcases.2 (by simp [hsrc])]
    · obtain ⟨q, hq, hq1⟩ := Option.map_eq_some'.mp (hcases.1 (by simp [hsrc])).1
      simp [hq, hq1, hsrc]
  | false =>
    rw [foldl_copyFiles_keep _ _ hsep.pairs, if_neg Bool.false_ne_true]
    rcases hsrc : w.files ((liveDir rt e).div f) with _ | v
    · simp [hcases.2 (by simp [hsrc])]
    · obtain ⟨q, hq, hq1⟩ := Option.map_eq_some'.mp (hcases.1 (by simp [hsrc])).2
      simp [hq, hq1, hsrc]

/-- Two entries of their own, one with a certificate and one with a stale copy: an export with
`--overwrite` copies the first and keeps the second's copy. -/
theorem export_mirrors_two_entries :
    let a : EntryConfig := { name := "a", primaryDomain := "a.test", dnsProvider := "aliyun" }
    let b : EntryConfig := { name := "b", primaryDomain := "b.test", dnsProvider := "aliyun" }
    let rt : Runtime := ⟨runtimePaths "data" ⟨{}, [a, b]⟩, ⟨{}, [a, b]⟩, fun _ => none⟩
    let w : World := ⟨fun p => if p = (liveDir rt a).div "cert.pem" then some "new" else
      if p = (outDir rt b).div "cert.pem" then some "old" else none, []⟩
    («export» rt true none true w).2.files ((outDir rt b).div "cert.pem") =
      (w.files ((liveDir rt b).div "cert.pem")).or (w.files ((outDir rt b).div "cert.pem")) := by
  intro a b rt w
  exact export_mirrors rt true none true w (.inl rfl) (by decide) (by decide) b (by decide) "cert.pem"
    (by decide)

/-- Every copy whose source exists has its destination. -/
def Filled (pairs : List (Path × Path)) (files : FileStore) : Prop :=
  ∀ q ∈ pairs, (files q.1).isSome → (files q.2).isSome

/-- Running the same export again, when no export file is a file of a lineage: after one with
`--overwrite`, another leaves the files as they are; after any, one with `--no-overwrite` changes
nothing at all. -/
theorem export_twice (rt : Runtime) (all : Bool) (name : Option String) (w : World)
    (hsep : Separate rt (exportTargets rt name)) (overwrite : Bool) :
    let w₁ := («export» rt all name overwrite w).2
    (overwrite = true → («export» rt all name true w₁).2.files = w₁.files) ∧
      («export» rt all name false w₁).2 = w₁ := by
  intro w₁
  by_cases hsel : all = true ∨ truthy name = true
  · let pairs := exportPairs rt (exportTargets rt name)
    have hw₁ : w₁.files = pairs.foldl (copyFiles overwrite) w.files :=
      export_files rt all name overwrite w hsel hsep
    refine ⟨fun ho => ?_, ?_⟩
    · subst ho
      rw [export_files rt all name true w₁ hsel hsep, hw₁,
        foldl_copyFiles_overwrite_idem hsep.pairs]
    · have hfilled : Filled pairs w₁.files := fun q hq hs => by
        rw [hw₁, foldl_copyFiles_source hsep.pairs overwrite hq] at hs
        rw [hw₁]
        exact foldl_copyFiles_filled hsep.pairs overwrite hq hs
      rw [export_world, if_pos hsel]
      refine (Keeps.stepProp (R := fun w w' => Filled pairs w.files → w' = w) (fun _ _ => rfl)
        (fun h₁ h₂ hf => (h₂ ((h₁ hf).symm ▸ hf)).trans (h₁ hf))).exportEach
          (fun e he f hf w hw => ?_) w₁ hfilled
      have hmem : ((liveDir rt e).div f, (outDir rt e).div f) ∈ pairs :=
        mem_exportPairs.mpr ⟨e, he, f, hf, rfl⟩
      simp only [copyOne]
      split_ifs with h₁ h₂ <;> try rfl
      have hd := hw _ hmem (by simpa [Option.isSome_iff_ne_none, Option.isNone_iff_eq_none] using h₁)
      simp_all
  · simp only [w₁, export_world, if_neg hsel, implies_true, and_self]

/-- One entry with a certificate: exporting it twice. -/
theorem export_twice_one_entry :
    let a : EntryConfig := { name := "a", primaryDomain := "a.test", dnsProvider := "aliyun" }
    let rt : Runtime := ⟨runtimePaths "data" ⟨{}, [a]⟩, ⟨{}, [a]⟩, fun _ => none⟩
    let w : World := ⟨fun p => if p = (liveDir rt a).div "cert.pem" then some "pem" else none, []⟩
    let w₁ := («export» rt true none true w).2
    (true = true → («export» rt true none true w₁).2.files = w₁.files) ∧
      («export» rt true none false w₁).2 = w₁ := by
  intro a rt w
  exact export_twice rt true none w (by decide) true

end Certman
