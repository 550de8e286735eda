import WebConfigAudit.Proofs.TargetSelection
/-!
Whether a lint looks at one file twice.  No path is looked at twice, but a file
has as many paths as links lead to it, and those are told apart by their text.
Where one file is looked at under two paths, a symbolic link below the directory
of the lint leads to it.
-/

namespace WebConfigAudit

namespace AuditResult

variable {v : Violation}

/-- Everything that a result reports, whether it stands or is suppressed. -/
def reported (result : AuditResult) : List Violation :=
  result.violations ++ result.suppressed.map SuppressedViolation.violation

theorem mem_reported_sorted {result : AuditResult} :
    v ∈ result.sorted.reported ↔ v ∈ result.reported := by
  simp only [reported, sorted, List.mem_append,
    (Violation.sort_perm result.violations).mem_iff]

theorem exists_of_mem_reported_joined {results : List AuditResult}
    (hv : v ∈ (joined results).reported) :
    ∃ result ∈ results, v ∈ result.reported := by
  simp only [reported, joined, List.mem_append, List.map_flatMap,
    List.mem_flatMap] at hv ⊢
  rcases hv with ⟨result, hresult, hv⟩ | ⟨result, hresult, hv⟩
  · exact ⟨result, hresult, Or.inl hv⟩
  · exact ⟨result, hresult, Or.inr hv⟩

end AuditResult

namespace Analyzer

variable {a : Analyzer} {tree : FileTree} {target : Target} {v : Violation}

/-- What is reported for a file is in that file, and the file is looked at. -/
theorem file_of_mem_audit (hv : v ∈ (a.audit tree target).reported) :
    tree.isEligible target = true ∧ v.file = target.config.text := by
  by_cases hanalyzed : ∃ summary, (a.introduce tree target []).1 =
      .analyzed summary
  · obtain ⟨heligible, _⟩ :=
      (introduce_fits a tree target []).analyzed_iff.mp hanalyzed
    obtain ⟨summary, hsummary⟩ := hanalyzed
    obtain ⟨source, hcontent, _⟩ := exists_text_of_analyzed hsummary
    rw [AuditResult.reported, audit_of_analyzed (Prod.ext hsummary rfl),
      FileTree.splitFound_eq hcontent, splitSuppressed_perm.mem_iff] at hv
    exact ⟨FileTree.isEligible_eq_true_iff.mpr heligible,
      (accounts_introduce a tree target).file_eq v hv⟩
  · rw [AuditResult.reported, audit_of_not_analyzed (not_exists.mp hanalyzed)]
      at hv
    contradiction

theorem exists_target_of_mem_run {targets : List Target}
    (hv : v ∈ (a.run tree targets).reported) :
    ∃ target ∈ targets, tree.isEligible target = true ∧
      v.file = target.config.text := by
  rw [run_eq, AuditResult.mem_reported_sorted] at hv
  obtain ⟨result, hresult, hv⟩ := AuditResult.exists_of_mem_reported_joined hv
  obtain ⟨target, htarget, rfl⟩ := List.mem_map.mp hresult
  exact ⟨target, htarget, file_of_mem_audit hv⟩

end Analyzer

namespace FileTree

variable {tree : FileTree} {contract : Contract} {root : Path} {base : Location}
  {target other : Target}

/-- A path leads down from a directory through a symbolic link. -/
def IsLinked (tree : FileTree) (root : Path) (base : Location) (path : Path) :
    Prop :=
  ∃ names, path = root.below names ∧ tree.PassesLink base names

/-- There is one target for a path. -/
theorem eq_of_config_eq (htarget : target ∈ tree.targetsBelow contract root)
    (hother : other ∈ tree.targetsBelow contract root)
    (hsame : target.config = other.config) : target = other := by
  obtain ⟨config, _, hof⟩ := List.mem_filterMap.mp htarget
  obtain ⟨next, _, hof'⟩ := List.mem_filterMap.mp hother
  rw [config_of_targetOf? hof, config_of_targetOf? hof'] at hsame
  rw [hsame] at hof
  exact Option.some.inj (hof.symm.trans hof')

theorem HasNames.exists_leadsBelow_of_mem_targetsBelow (hnames : tree.HasNames)
    (hroot : tree.find true root = .ok (base, .directory))
    (htarget : target ∈ tree.targetsBelow contract root) :
    ∃ names, tree.LeadsBelow base root names target.config := by
  obtain ⟨config, hconfig, hof⟩ := List.mem_filterMap.mp htarget
  rw [Path.mem_sort, List.mem_filter, filesBelow_eq hroot] at hconfig
  rw [config_of_targetOf? hof]
  exact hnames.exists_leadsBelow hroot hconfig.1

/-- A file that is looked at stands where its path says, unless a link leads to
it. -/
theorem HasNames.linked_or_canonical (hnames : tree.HasNames)
    (hroot : tree.find true root = .ok (base, .directory))
    (htarget : target ∈ tree.targetsBelow contract root)
    (heligible : tree.isEligible target = true) :
    tree.IsLinked root base target.config ∨
      ∃ names, (∀ name ∈ base ++ names, IsName name) ∧
      target.config = root.below names ∧
        tree.canonical target.config = .ok (base ++ names).path := by
  obtain ⟨names, hbelow⟩ :=
    hnames.exists_leadsBelow_of_mem_targetsBelow hroot htarget
  obtain ⟨place, content, hfound⟩ :=
    exists_file_of_eligible (isEligible_eq_true_iff.mp heligible)
  rcases hbelow.ends with hpasses | hends
  · exact Or.inl ⟨names, hbelow.path_eq, hpasses⟩
  · obtain rfl := hends place _ hfound
    exact Or.inr ⟨names, hnames.isName (item?_of_find hfound), hbelow.path_eq,
      canonical_eq hfound⟩

/-- One file is not looked at twice unless a link leads to it. -/
theorem HasNames.linked_of_canonical_eq (hnames : tree.HasNames)
    (hroot : tree.find true root = .ok (base, .directory))
    (htarget : target ∈ tree.targetsBelow contract root)
    (hother : other ∈ tree.targetsBelow contract root)
    (heligible : tree.isEligible target = true)
    (heligible' : tree.isEligible other = true) (hdiffer : target ≠ other)
    (hsame : tree.canonical target.config = tree.canonical other.config) :
    tree.IsLinked root base target.config ∨
      tree.IsLinked root base other.config := by
  rcases hnames.linked_or_canonical hroot htarget heligible with
    hlinked | ⟨names, hnamed, hpath, hcanonical⟩
  · exact Or.inl hlinked
  · rcases hnames.linked_or_canonical hroot hother heligible' with
      hlinked | ⟨others, hnamed', hpath', hcanonical'⟩
    · exact Or.inr hlinked
    · rw [hcanonical, hcanonical', Except.ok.injEq] at hsame
      have hplaces := Location.path_injective hnamed hnamed' hsame
      have hconfig : target.config = other.config := by
        rw [hpath, hpath', List.append_cancel_left hplaces]
      exact absurd (eq_of_config_eq htarget hother hconfig) hdiffer

end FileTree

/-- A lint of a directory and symbolic links.  Whatever links there are, no two
targets have the same path, and a target that is looked at stands where its path
says unless a link below the directory leads to it.  So one file is looked at
under two paths only if such a link leads to it by one of them, and the same
holds of what any analysis reports under two paths of one file. -/
theorem repeated_configuration_is_linked {tree : FileTree}
    (hnames : tree.HasNames) {root : Path} {base : Location}
    (hroot : tree.find true root = .ok (base, .directory))
    (contract : Contract) :
    ∃ targets, tree.targets contract root = .ok targets ∧
      (targets.Pairwise fun target next =>
        target.config.compare next.config = .lt) ∧
      (∀ target ∈ targets, tree.isEligible target = true →
        tree.IsLinked root base target.config ∨
          ∃ names, (∀ name ∈ base ++ names, IsName name) ∧
          target.config = root.below names ∧
            tree.canonical target.config = .ok (base ++ names).path) ∧
      (∀ target ∈ targets, ∀ other ∈ targets, tree.isEligible target = true →
        tree.isEligible other = true → target ≠ other →
        tree.canonical target.config = tree.canonical other.config →
          tree.IsLinked root base target.config ∨
          tree.IsLinked root base other.config) ∧
      ∀ a : Analyzer, ∀ v ∈ (a.run tree targets).reported,
        ∀ w ∈ (a.run tree targets).reported,
        v.file ≠ w.file → tree.canonical ⟨v.file⟩ = tree.canonical ⟨w.file⟩ →
          tree.IsLinked root base ⟨v.file⟩ ∨
          tree.IsLinked root base ⟨w.file⟩ := by
  refine ⟨tree.targetsBelow contract root, FileTree.targets_eq hroot,
    hnames.pairwise_targetsBelow hroot,
    fun target htarget => hnames.linked_or_canonical hroot htarget,
    fun target htarget other hother => hnames.linked_of_canonical_eq hroot
      htarget hother, ?_⟩
  intro a v hv w hw hdiffer hsame
  obtain ⟨target, htarget, heligible, hfile⟩ :=
    Analyzer.exists_target_of_mem_run hv
  obtain ⟨other, hother, heligible', hfile'⟩ :=
    Analyzer.exists_target_of_mem_run hw
  rw [hfile, hfile'] at hdiffer hsame ⊢
  exact hnames.linked_of_canonical_eq hroot htarget hother heligible heligible'
    (fun heq => hdiffer (by rw [heq])) hsame

namespace RepeatedTargetsWitness

/-- A site with a project and its configuration, and a link to the site beside
it. -/
def tree : FileTree where
  items :=
    [(["mirror"], .link "site"), (["site"], .directory),
     (["site", "App.csproj"], .file (some "<Project/>")),
     (["site", "Web.config"], .file (some "<configuration/>"))]
  distinct := by decide

def own : Target := ⟨⟨"./site/Web.config"⟩, ⟨"./site/App.csproj"⟩⟩

def mirrored : Target := ⟨⟨"./mirror/Web.config"⟩, ⟨"./mirror/App.csproj"⟩⟩

theorem hasNames : tree.HasNames := by
  unfold FileTree.HasNames
  decide

theorem find_here : tree.find true ⟨"."⟩ = .ok ([], .directory) := by decide

theorem mem_targets_of_configs {target : Target}
    (hconfig : target.config ∈
      (tree.filesBelow entersDirectory ⟨"."⟩).filter Path.isTargetName)
    (hof : tree.targetOf? {} ⟨"."⟩ target.config = some target) :
    target ∈ tree.targetsBelow {} ⟨"."⟩ :=
  List.mem_filterMap.mpr ⟨target.config, Path.mem_sort.mpr hconfig, hof⟩

theorem own_mem : own ∈ tree.targetsBelow {} ⟨"."⟩ :=
  mem_targets_of_configs (by decide +kernel) (by decide +kernel)

theorem mirrored_mem : mirrored ∈ tree.targetsBelow {} ⟨"."⟩ :=
  mem_targets_of_configs (by decide +kernel) (by decide +kernel)

/-- The configuration is looked at under its own path and through the link, and
that is what the second path leads through. -/
theorem mirrored_site_is_linked :
    tree.HasNames ∧ tree.find true ⟨"."⟩ = .ok ([], .directory) ∧
      ∃ targets, tree.targets {} ⟨"."⟩ = .ok targets ∧
        (targets.Pairwise fun target next =>
          target.config.compare next.config = .lt) ∧
        (tree.IsLinked ⟨"."⟩ [] mirrored.config ∨
          tree.IsLinked ⟨"."⟩ [] own.config) := by
  obtain ⟨targets, htargets, hsorted, _, hlinked, _⟩ :=
    repeated_configuration_is_linked hasNames find_here {}
  have heq : tree.targetsBelow {} ⟨"."⟩ = targets :=
    Except.ok.inj ((FileTree.targets_eq find_here).symm.trans htargets)
  refine ⟨hasNames, find_here, targets, htargets, hsorted, ?_⟩
  exact hlinked mirrored (heq ▸ mirrored_mem) own (heq ▸ own_mem)
    (by decide +kernel) (by decide +kernel) (by decide) (by decide +kernel)

/-- One file is looked at twice. -/
theorem configuration_is_looked_at_twice :
    ∃ targets, tree.targets {} ⟨"."⟩ = .ok targets ∧ own ∈ targets ∧
      mirrored ∈ targets ∧
      own ≠ mirrored ∧ tree.isEligible own = true ∧
      tree.isEligible mirrored = true ∧
      tree.canonical own.config = .ok ⟨"/site/Web.config"⟩ ∧
      tree.canonical mirrored.config = .ok ⟨"/site/Web.config"⟩ :=
  ⟨_, FileTree.targets_eq find_here, own_mem, mirrored_mem, by decide,
    by decide +kernel, by decide +kernel, by decide +kernel, by decide +kernel⟩

end RepeatedTargetsWitness

end WebConfigAudit
