import WebConfigAudit.Proofs.MergedResults
import WebConfigAudit.Proofs.ProjectBeside
import WebConfigAudit.Proofs.TreeWalk
/-!
Which configurations a lint of a directory looks at.  They are selected twice:
the search pairs each of them with a project at or above it, and the audit drops
those whose project is not beside them.  Together the two leave the files that
have a project in their own directory.
-/

namespace WebConfigAudit

/-- A directory of this name is not searched, in any case of the name. -/
def IsPruned (name : String) : Prop :=
  (∃ rest, name = "." ++ rest) ∨
    name.toLower ∈ ["bin", "obj", "node_modules", "packages"]

theorem entersDirectory_iff {name : String} :
    entersDirectory name = true ↔ ¬ IsPruned name := by
  have hsmall :
      skippedDirectories.map String.toLower =
        ["bin", "obj", "node_modules", "packages"] := by
    simp [skippedDirectories, ← String.toList_inj, toList_toLower]
  have hdot : name.toList.head? = some '.' ↔ ∃ rest, name = "." ++ rest := by
    constructor
    · intro hhead
      obtain ⟨rest, hrest⟩ := List.head?_eq_some_iff.mp hhead
      refine ⟨String.ofList rest, String.toList_inj.mp ?_⟩
      simp [hrest]
    · rintro ⟨rest, rfl⟩
      simp
  rw [entersDirectory, IsPruned, ← hdot, ← hsmall, Bool.and_eq_true,
    Bool.not_eq_true', List.mem_map, not_or, bne_iff_ne, ← Bool.not_eq_true,
    List.any_eq_true]
  simp only [sameLetters_eq_true_iff]

namespace FileTree

variable {tree : FileTree} {contract : Contract} {root : Path} {base : Location}
  {target : Target} {below names : List String} {name : String}

/-- A configuration below a directory that a lint of the directory should look
at: a file of the right name with a project file beside it, in no directory that
is left out, and at a path that is not left out. -/
structure IsSelected (tree : FileTree) (contract : Contract) (base : Location)
    (names : List String) : Prop where
  is_file : ∃ content, tree.item? (base ++ names) = some (.file content)
  named : ∃ name, names.getLast? = some name ∧ IsConfigName name
  beside : ∃ project, tree.HasProject (base ++ names.dropLast) project
  entered : ∀ inner ∈ names.dropLast, ¬ IsPruned inner
  kept : ∀ pattern ∈ contract.excludedPaths,
    patternMatches pattern ("/".intercalate names) = false

theorem excludes_eq_false_iff {path : String} :
    contract.excludes path = false ↔
      ∀ pattern ∈ contract.excludedPaths, patternMatches pattern path =
        false := by
  simp [Contract.excludes]

/-- The configurations that the search finds below a directory. -/
theorem configsAt_eq (hroot : tree.find true root = .ok (base, .directory)) :
    tree.configsAt root =
      .ok ((tree.filesBelow entersDirectory root).filter
        Path.isTargetName) := by
  have hfile : tree.isFile root = false := by
    rw [isFile, hroot]
  rw [configsAt, hfile, if_neg Bool.false_ne_true]

/-- The target that a configuration becomes, if it is not left out and a project
is found for it. -/
def targetOf? (tree : FileTree) (contract : Contract) (root config : Path) :
    Option Target :=
  if contract.excludes ((config.stripBase? root).getD config).text then none
  else (tree.nearestProject? (config.parent?.getD root)).map fun project =>
    ⟨config, project⟩

theorem targetOf?_eq_some_iff (hne : root.text.toList ≠ [])
    (hnames : ∀ inner ∈ below ++ [name], IsName inner) :
    tree.targetOf? contract root (root.below (below ++ [name])) = some target ↔
      (∀ pattern ∈ contract.excludedPaths,
        patternMatches pattern ("/".intercalate (below ++ [name])) = false) ∧
      tree.nearestProject? (root.below below).bare = some target.project ∧
      target.config = root.below (below ++ [name]) := by
  have hsome : below ++ [name] ≠ [] :=
    List.append_ne_nil_of_right_ne_nil _ (List.cons_ne_nil _ _)
  have hdirectory : (root.below below).text.toList ≠ [] :=
    Path.toList_below_ne_nil hne fun inner hinner =>
      hnames inner (List.mem_append_left _ hinner)
  have hparent : (root.below (below ++ [name])).parent? =
      some (root.below below).bare := by
    rw [Path.below_concat]
    exact Path.parent?_join hdirectory
      (hnames name (List.mem_append_right _ List.mem_cons_self))
  rw [targetOf?, Path.stripBase?_below hne hnames hsome, Option.getD_some,
    hparent, Option.getD_some, Option.ite_none_left_eq_some, Bool.not_eq_true,
    excludes_eq_false_iff, Option.map_eq_some_iff]
  refine and_congr_right fun _ => ?_
  constructor
  · rintro ⟨project, hproject, rfl⟩
    exact ⟨hproject, rfl⟩
  · rintro ⟨hproject, hconfig⟩
    exact ⟨target.project, hproject, by rw [← hconfig]⟩

theorem config_of_targetOf? {config : Path}
    (htarget : tree.targetOf? contract root config = some target) :
    target.config = config := by
  rw [targetOf?, Option.ite_none_left_eq_some, Option.map_eq_some_iff]
    at htarget
  obtain ⟨_, project, _, rfl⟩ := htarget
  rfl

/-- The targets that the search finds below a directory. -/
def targetsBelow (tree : FileTree) (contract : Contract) (root : Path) :
    List Target :=
  (Path.sort ((tree.filesBelow entersDirectory root).filter
    Path.isTargetName)).filterMap
    (tree.targetOf? contract root)

/-- The targets are what the configurations become, in the order of their
paths. -/
theorem targets_eq_of_configsAt {configs : List Path}
    (hconfigs : tree.configsAt root = .ok configs) :
    tree.targets contract root =
      .ok ((Path.sort configs).filterMap (tree.targetOf? contract root)) := by
  rw [targets, hconfigs]
  rfl

theorem targets_eq (hroot : tree.find true root = .ok (base, .directory)) :
    tree.targets contract root = .ok (tree.targetsBelow contract root) :=
  targets_eq_of_configsAt (configsAt_eq hroot)

/-- A target is a configuration that the walk comes to and that is not left out,
with the nearest project. -/
structure IsSearched (tree : FileTree) (contract : Contract) (root : Path)
    (base : Location) (below : List String) (name : String) (target : Target) :
    Prop where
  comes : tree.ComesTo entersDirectory base root below name
  named : IsConfigName name
  kept : ∀ pattern ∈ contract.excludedPaths,
    patternMatches pattern ("/".intercalate (below ++ [name])) = false
  paired : tree.nearestProject? (root.below below).bare = some target.project
  config_eq : target.config = root.below (below ++ [name])

theorem IsPlain.mem_targetsBelow_iff (hplain : tree.IsPlain)
    (hroot : tree.find true root = .ok (base, .directory)) :
    target ∈ tree.targetsBelow contract root ↔
      ∃ below name, tree.IsSearched contract root base below name target := by
  have hne := (isAllowed_of_find hroot).ne_nil
  have hsearched : ∀ below name,
      tree.ComesTo entersDirectory base root below name →
      ((∀ inner ∈ below ++ [name], IsName inner) ∧
        ((root.below (below ++ [name])).isTargetName = true ↔
          IsConfigName name)) := by
    intro below name hcomes
    have hnames := hcomes.isName hplain
    refine ⟨hnames, ?_⟩
    rw [Path.below_concat]
    refine Path.isTargetName_join
      (Path.toList_below_ne_nil hne fun inner hinner => ?_) ?_
    · exact hnames inner (List.mem_append_left _ hinner)
    · exact hnames name (List.mem_append_right _ List.mem_cons_self)
  rw [targetsBelow, List.mem_filterMap]
  constructor
  · rintro ⟨config, hconfig, htarget⟩
    rw [Path.mem_sort, List.mem_filter, hplain.mem_filesBelow_iff hroot]
      at hconfig
    obtain ⟨⟨below, name, hcomes, rfl⟩, htargetName⟩ := hconfig
    obtain ⟨hnames, hnamed⟩ := hsearched below name hcomes
    obtain ⟨hkept, hpaired, hconfig⟩ :=
      (targetOf?_eq_some_iff hne hnames).mp htarget
    exact ⟨below, name, hcomes, hnamed.mp htargetName, hkept, hpaired, hconfig⟩
  · rintro ⟨below, name, h⟩
    obtain ⟨hnames, hnamed⟩ := hsearched below name h.comes
    refine ⟨root.below (below ++ [name]), ?_,
      (targetOf?_eq_some_iff hne hnames).mpr
        ⟨h.kept, h.paired, h.config_eq⟩⟩
    rw [Path.mem_sort, List.mem_filter, hplain.mem_filesBelow_iff hroot]
    exact ⟨⟨below, name, h.comes, rfl⟩, hnamed.mpr h.named⟩

/-- The directory of a configuration that the search finds. -/
theorem IsPlain.find_of_comesTo (hplain : tree.IsPlain)
    (hroot : tree.find true root = .ok (base, .directory))
    {enter : String → Bool} (hcomes : tree.ComesTo enter base root below name) :
    tree.find true (root.below below) = .ok (base ++ below, .directory) := by
  obtain ⟨content, hfile⟩ := hcomes.is_file
  rw [← List.append_assoc] at hfile
  exact hplain.find_below hroot (hplain.directory_above hfile) hcomes.opened

/-- An eligible target stands beside its project. -/
theorem IsPlain.isSelected_of_isEligible (hplain : tree.IsPlain)
    (hroot : tree.find true root = .ok (base, .directory))
    (h : tree.IsSearched contract root base below name target)
    (heligible : tree.isEligible target = true) :
    tree.IsSelected contract base (below ++ [name]) ∧
      target.config.text.utf8ByteSize ≤ pathLimit := by
  obtain ⟨content, hfile⟩ := h.comes.is_file
  have hname : IsName name := hplain.isName hfile name (by simp)
  have hdirectory := hplain.find_of_comesTo hroot h.comes
  obtain ⟨q, inside, project, hq, hproject, heq⟩ :=
    hplain.exists_of_nearestProject? h.paired
  obtain ⟨hnamed, stored, hstored⟩ := hproject
  have hprojectName : IsName project := hplain.isName hstored project (by simp)
  have htarget : target = ⟨(root.below below).join name, q.join project⟩ := by
    rw [← Path.below_concat, ← h.config_eq, ← heq]
  rw [htarget, hplain.isEligible_iff hdirectory hq hname hprojectName]
    at heligible
  obtain ⟨⟨hshort, _⟩, _, rfl⟩ := heligible
  rw [htarget]
  refine ⟨⟨⟨content, hfile⟩, ⟨name, by simp, h.named⟩, ⟨project, ?_⟩, ?_,
    h.kept⟩, hshort⟩
  · rw [List.dropLast_concat]
    exact ⟨hnamed, stored, hstored⟩
  · rw [List.dropLast_concat]
    exact fun inner hinner =>
      entersDirectory_iff.mp (h.comes.entered inner hinner)

/-- A selected file is an eligible target if its path and that of a project
beside it are short enough. -/
theorem IsPlain.exists_eligible_of_isSelected (hplain : tree.IsPlain)
    (hroot : tree.find true root = .ok (base, .directory))
    (h : tree.IsSelected contract base names)
    (hshort : (root.below names).text.utf8ByteSize ≤ pathLimit)
    (hproject : ∃ project, tree.HasProject (base ++ names.dropLast) project ∧
      ((root.below names).directory.join project).text.utf8ByteSize ≤
        pathLimit) :
    ∃ target ∈ tree.targetsBelow contract root,
      tree.isEligible target = true ∧ target.config = root.below names := by
  obtain ⟨⟨content, hfile⟩, ⟨name, hlast, hnamed⟩, _, hentered, hkept⟩ := h
  obtain ⟨below, rfl⟩ := List.getLast?_eq_some_iff.mp hlast
  obtain ⟨project, hbeside, hprojectShort⟩ := hproject
  rw [List.dropLast_concat] at hentered hbeside
  have hne := (isAllowed_of_find hroot).ne_nil
  have hnames : ∀ inner ∈ below ++ [name], IsName inner := fun inner hinner =>
    hplain.isName hfile inner (List.mem_append_right _ hinner)
  have hname : IsName name :=
    hnames name (List.mem_append_right _ List.mem_cons_self)
  have hbelow : ∀ inner ∈ below, IsName inner := fun inner hinner =>
    hnames inner (List.mem_append_left _ hinner)
  rw [Path.below_concat] at hshort hprojectShort
  have hcomes : tree.ComesTo entersDirectory base root below name :=
    ⟨⟨content, hfile⟩, fun inner hinner =>
        entersDirectory_iff.mpr (hentered inner hinner),
      (utf8ByteSize_le_of_starts (Path.toList_prefix_join hname _)).trans
        hshort⟩
  have hdirectory := hplain.find_of_comesTo hroot hcomes
  rw [Path.directory_join (Path.toList_below_ne_nil hne hbelow) hname]
    at hprojectShort
  have hbare := hplain.find_bare hdirectory
  obtain ⟨found, hfound⟩ := hplain.exists_projectIn? hbare hbeside hprojectShort
  obtain ⟨inside, other, hinside, ⟨_, stored, hstored⟩, rfl⟩ :=
    hplain.exists_of_projectIn? hfound
  have hother : IsName other := hplain.isName hstored other (by simp)
  refine ⟨⟨root.below (below ++ [name]), (root.below below).bare.join other⟩,
    (hplain.mem_targetsBelow_iff hroot).mpr
      ⟨below, name, hcomes, hnamed, hkept, nearestProject?_of_projectIn? hfound,
        rfl⟩, ?_, rfl⟩
  rw [Path.below_concat, hplain.isEligible_iff hdirectory hbare hname hother]
  rw [← List.append_assoc] at hfile
  exact ⟨⟨hshort, content, hfile⟩, hnamed, rfl⟩

/-- The files below a directory have paths with different steps. -/
theorem HasNames.nodup_components_filesBelow (hnames : tree.HasNames)
    (hroot : tree.find true root = .ok (base, .directory))
    {enter : String → Bool} :
    ((tree.filesBelow enter root).map Path.components).Nodup := by
  have hne := (isAllowed_of_find hroot).ne_nil
  rw [filesBelow_eq hroot]
  refine hnames.nodup_filesFrom.map_on fun path hpath other hother hsame => ?_
  obtain ⟨below, hbelow⟩ := hnames.exists_leadsBelow hroot hpath
  obtain ⟨others, hothers⟩ := hnames.exists_leadsBelow hroot hother
  rw [hbelow.path_eq, hothers.path_eq] at hsame ⊢
  rw [Path.below_injective hne hbelow.named hothers.named hsame]

theorem HasNames.nodup_components_configs (hnames : tree.HasNames)
    (hroot : tree.find true root = .ok (base, .directory)) :
    (((tree.filesBelow entersDirectory root).filter Path.isTargetName).map
      Path.components).Nodup :=
  (hnames.nodup_components_filesBelow hroot).sublist (List.filter_sublist.map _)

/-- What configurations with different steps become is in the order of their
paths. -/
theorem pairwise_filterMap_targetOf? {configs : List Path}
    (hdiffer : (configs.map Path.components).Nodup) :
    ((Path.sort configs).filterMap (tree.targetOf? contract root)).Pairwise
      fun target next =>
        target.config.compare next.config = .lt := by
  refine (Path.pairwise_lt_sort hdiffer).filterMap _ ?_
  intro config next hlt target htarget following hfollowing
  rwa [config_of_targetOf? htarget, config_of_targetOf? hfollowing]

/-- Targets are in the order of their configurations' paths. -/
theorem HasNames.pairwise_targetsBelow (hnames : tree.HasNames)
    (hroot : tree.find true root = .ok (base, .directory)) :
    (tree.targetsBelow contract root).Pairwise fun target next =>
      target.config.compare next.config = .lt :=
  pairwise_filterMap_targetOf? (hnames.nodup_components_configs hroot)

theorem IsPlain.pairwise_targetsBelow (hplain : tree.IsPlain)
    (hroot : tree.find true root = .ok (base, .directory)) :
    (tree.targetsBelow contract root).Pairwise fun target next =>
      target.config.compare next.config = .lt :=
  hplain.hasNames.pairwise_targetsBelow hroot

/-- The targets do not depend on the order of listing. -/
theorem SameItems.targetsBelow_eq {other : FileTree}
    (hsame : tree.SameItems other) (hplain : tree.IsPlain)
    (hroot : tree.find true root = .ok (base, .directory)) :
    other.targetsBelow contract root = tree.targetsBelow contract root := by
  have htargets : other.targetOf? contract root =
      tree.targetOf? contract root := by
    funext config
    rw [targetOf?, targetOf?, hsame.nearestProject?_eq hplain]
  rw [targetsBelow, targetsBelow, htargets]
  exact congrArg _
    (Path.sort_eq_of_perm (hplain.hasNames.nodup_components_configs hroot)
      ((hsame.filesBelow_perm hplain hroot).filter _))

end FileTree

section Audit

variable {a : Analyzer} {tree : FileTree} {target : Target}

/-- A file that is looked at is analyzed or listed as failed. -/
theorem Analyzer.audit_of_eligible (hreader : a.hasReader = true)
    (heligible : tree.isEligible target = true) :
    ((a.audit tree target).scanned = 1 ∧ (a.audit tree target).failed = []) ∨
      ((a.audit tree target).scanned = 0 ∧
        (a.audit tree target).failed = [target.config.text]) := by
  rcases introduce_cases a tree target with
    ⟨hnot, _⟩ | ⟨_, hnone, _⟩ | ⟨_, _, _, hdone⟩ | ⟨_, _, source, _, hdone⟩
  · exact absurd (FileTree.isEligible_eq_true_iff.mp heligible) hnot
  · rw [hreader] at hnone
    contradiction
  · rw [audit, hdone]
    exact Or.inr ⟨rfl, rfl⟩
  · rw [audit, hdone]
    rcases analyzeSource_cases hreader target.config.text source with
      ⟨_, _, hsource⟩ | ⟨_, _, hsource⟩
    · rw [hsource]
      exact Or.inr ⟨rfl, rfl⟩
    · rw [hsource]
      exact Or.inl ⟨rfl, rfl⟩

/-- A file that is not looked at contributes nothing. -/
theorem Analyzer.audit_of_not_eligible (hnot : tree.isEligible target = false) :
    (∀ sink, a.introduce tree target sink = (.ineligible, sink)) ∧
      a.audit tree target = {} := by
  have hintroduce : ∀ sink, a.introduce tree target sink =
      (.ineligible, sink) := by
    intro sink
    rw [introduce, hnot]
    rfl
  refine ⟨hintroduce, ?_⟩
  rw [audit, hintroduce]

theorem Analyzer.joined_filter_isEligible (a : Analyzer) (tree : FileTree)
    (targets : List Target) :
    AuditResult.joined ((targets.filter tree.isEligible).map (a.audit tree)) =
      AuditResult.joined (targets.map (a.audit tree)) := by
  induction targets with
  | nil => rfl
  | cons target targets ih =>
      rw [List.map_cons, AuditResult.joined_cons, ← ih]
      cases heligible : tree.isEligible target with
      | true =>
          rw [List.filter_cons_of_pos heligible, List.map_cons,
            AuditResult.joined_cons]
      | false =>
          rw [List.filter_cons_of_neg (by simp [heligible]),
            (audit_of_not_eligible heligible).2, AuditResult.empty_merge]

theorem Analyzer.run_filter_isEligible (a : Analyzer) (tree : FileTree)
    (targets : List Target) :
    a.run tree (targets.filter tree.isEligible) = a.run tree targets := by
  rw [run_eq, run_eq, joined_filter_isEligible]

/-- Each file that is looked at is counted once. -/
theorem Analyzer.run_scanned_add_failed (hreader : a.hasReader = true)
    {targets : List Target}
    (heligible : ∀ target ∈ targets, tree.isEligible target = true) :
    (a.run tree targets).scanned + (a.run tree targets).failed.length =
      targets.length := by
  rw [run_eq]
  simp only [AuditResult.sorted, AuditResult.joined]
  induction targets with
  | nil => rfl
  | cons target targets ih =>
      rw [List.forall_mem_cons] at heligible
      have hrest := ih heligible.2
      simp only [List.map_cons, List.sum_cons, List.flatMap_cons,
        List.length_append, List.length_cons]
      rcases audit_of_eligible hreader heligible.1 with
        ⟨hscanned, hfailed⟩ | ⟨hscanned, hfailed⟩
      · rw [hscanned, hfailed, List.length_nil]
        omega
      · rw [hscanned, hfailed, List.length_singleton]
        omega

end Audit

/-- A lint of a directory looks at the documented configurations.  In a tree
without links, every configuration that it looks at is one that the
documentation selects, and every selected one is looked at once, if its path and
that of a project beside it are not longer than the system takes.  The targets
come in the order of their paths, whatever the order is in which directories
list their items.  Of the targets, those that are looked at are counted or
listed as failed, and the others contribute nothing. -/
theorem lint_looks_at_selected_configurations {tree : FileTree}
    (hplain : tree.IsPlain) {root : Path} {base : Location}
    (hroot : tree.find true root = .ok (base, .directory))
    (contract : Contract) :
    ∃ targets, tree.targets contract root = .ok targets ∧
      (∀ target ∈ targets, tree.isEligible target = true →
        target.config.text.utf8ByteSize ≤ pathLimit ∧
          ∃! names, tree.IsSelected contract base names ∧
          target.config = root.below names) ∧
      (∀ names, tree.IsSelected contract base names →
        (root.below names).text.utf8ByteSize ≤ pathLimit →
        (∃ project, tree.HasProject (base ++ names.dropLast) project ∧
          ((root.below names).directory.join project).text.utf8ByteSize ≤
            pathLimit) →
        ∃! target, target ∈ targets ∧ tree.isEligible target = true ∧
          target.config = root.below names) ∧
      (targets.Pairwise fun target next =>
        target.config.compare next.config = .lt) ∧
      (∀ other, tree.SameItems other →
        other.targets contract root = .ok targets) ∧
      ∀ a : Analyzer, a.hasReader = true →
        (∀ target ∈ targets, tree.isEligible target = true →
          let result := a.audit tree target
          (result.scanned = 1 ∧ result.failed = []) ∨
            (result.scanned = 0 ∧ result.failed = [target.config.text])) ∧
        (∀ target ∈ targets, tree.isEligible target = false →
          (∀ sink, a.introduce tree target sink = (.ineligible, sink)) ∧
            a.audit tree target = {}) ∧
        let found := targets.filter tree.isEligible
        a.run tree targets = a.run tree found ∧
          (a.run tree targets).scanned + (a.run tree targets).failed.length =
            found.length := by
  have hne := (FileTree.isAllowed_of_find hroot).ne_nil
  have hnamed {names : List String}
        (hselected : tree.IsSelected contract base names) :
      ∀ inner ∈ names, IsName inner := by
    obtain ⟨content, hfile⟩ := hselected.is_file
    exact fun inner hinner =>
      hplain.isName hfile inner (List.mem_append_right _ hinner)
  refine ⟨tree.targetsBelow contract root, FileTree.targets_eq hroot, ?_, ?_,
    hplain.pairwise_targetsBelow hroot, ?_, ?_⟩
  · intro target htarget heligible
    obtain ⟨below, name, h⟩ := (hplain.mem_targetsBelow_iff hroot).mp htarget
    obtain ⟨hselected, hshort⟩ :=
      hplain.isSelected_of_isEligible hroot h heligible
    refine ⟨hshort, below ++ [name], ⟨hselected, h.config_eq⟩, ?_⟩
    rintro names ⟨hother, hsame⟩
    rw [h.config_eq] at hsame
    exact (Path.below_injective hne (hnamed hselected) (hnamed hother)
      (congrArg Path.components hsame)).symm
  · intro names hselected hshort hproject
    obtain ⟨target, htarget, heligible, hconfig⟩ :=
      hplain.exists_eligible_of_isSelected hroot hselected hshort hproject
    refine ⟨target, ⟨htarget, heligible, hconfig⟩, ?_⟩
    rintro other ⟨hother, _, hsame⟩
    obtain ⟨config, _, hof⟩ := List.mem_filterMap.mp htarget
    obtain ⟨config', _, hof'⟩ := List.mem_filterMap.mp hother
    have heq : config' = config := by
      rw [← FileTree.config_of_targetOf? hof,
        ← FileTree.config_of_targetOf? hof', hconfig, hsame]
    rw [heq, hof] at hof'
    exact (Option.some.inj hof').symm
  · intro other hsame
    rw [FileTree.targets_eq ((hsame.find_eq true root).trans hroot),
      hsame.targetsBelow_eq hplain hroot]
  · intro a hreader
    refine ⟨fun target _ heligible => a.audit_of_eligible hreader heligible,
      fun target _ hnot => a.audit_of_not_eligible hnot,
      (a.run_filter_isEligible tree _).symm, ?_⟩
    rw [← a.run_filter_isEligible]
    exact a.run_scanned_add_failed hreader fun target htarget =>
      (List.mem_filter.mp htarget).2

namespace TargetSelectionWitness

/-- A site with its project and three configurations, one beside the project,
one in a directory without a project, and one in a directory that is not
searched. -/
def tree : FileTree where
  items :=
    [(["site"], .directory), (["site", "Views"], .directory),
     (["site", "Views", "web.config"], .file (some "<configuration/>")),
     (["site", "bin"], .directory),
     (["site", "bin", "web.config"], .file (some "<configuration/>")),
     (["site", "Storefront.csproj"], .file (some "<Project/>")),
     (["site", "Web.config"], .file (some "<configuration/>"))]
  distinct := by decide

/-- The same site, listed backwards. -/
def backwards : FileTree where
  items := tree.items.reverse
  distinct := by decide

theorem sameItems : tree.SameItems backwards where
  perm := tree.items.reverse_perm
  current := rfl

theorem isPlain : tree.IsPlain where
  named := by decide
  enclosed := by decide
  no_link := by simp [tree]

theorem isConfigName_site : IsConfigName "Web.config" := by
  rw [IsConfigName, ← String.toList_inj]
  simp [toList_toLower]

theorem hasProject_site : tree.HasProject ["site"] "Storefront.csproj" := by
  refine ⟨⟨"Storefront", "csproj", by decide, by decide, ?_⟩, some "<Project/>",
    by decide⟩
  rw [List.mem_cons, ← String.toList_inj]
  simp [toList_toLower]

theorem isSelected_site : tree.IsSelected {} ["site"] ["Web.config"] where
  is_file := ⟨some "<configuration/>", by decide⟩
  named := ⟨"Web.config", rfl, isConfigName_site⟩
  beside := ⟨"Storefront.csproj", hasProject_site⟩
  entered := List.forall_mem_nil _
  kept := List.forall_mem_nil _

/-- The configuration beside the project is looked at, in whatever order the
site is listed. -/
theorem site_is_looked_at :
    tree.IsPlain ∧ tree.find true ⟨"site"⟩ = .ok (["site"], .directory) ∧
      tree.IsSelected {} ["site"] ["Web.config"] ∧
      ∃ targets, tree.targets {} ⟨"site"⟩ = .ok targets ∧
        backwards.targets {} ⟨"site"⟩ = .ok targets ∧
        ∃! target, target ∈ targets ∧ tree.isEligible target = true ∧
          target.config = ⟨"site/Web.config"⟩ := by
  have hroot : tree.find true ⟨"site"⟩ = .ok (["site"], .directory) := by decide
  obtain ⟨targets, htargets, _, hcomplete, _, horder, _⟩ :=
    lint_looks_at_selected_configurations isPlain hroot {}
  exact ⟨isPlain, hroot, isSelected_site, targets, htargets,
    horder backwards sameItems,
    hcomplete ["Web.config"] isSelected_site (by decide)
      ⟨"Storefront.csproj", hasProject_site, by decide⟩⟩

/-- The path of the site with dots behind it that make no step. -/
def dotted : Nat → Path
  | 0 => ⟨"site"⟩
  | n + 1 => ⟨(dotted n).text ++ "/."⟩

theorem utf8ByteSize_dotted (n : Nat) :
    (dotted n).text.utf8ByteSize = 4 + 2 * n := by
  induction n with
  | zero => rfl
  | succ n ih =>
      rw [dotted, String.utf8ByteSize_append, ih]
      exact Nat.add_assoc 4 (2 * n) 2

theorem cutAtSlashes_dotted (n : Nat) :
    Path.cutAtSlashes (dotted n).text.toList =
      "site".toList :: List.replicate n ['.'] := by
  induction n with
  | zero => decide
  | succ n ih =>
      have hdot : (dotted (n + 1)).text.toList =
          (dotted n).text.toList ++ '/' :: ['.'] :=
        String.toList_append
      rw [hdot, Path.cutAtSlashes_append, ih, List.replicate_succ',
        List.cons_append]
      rfl

theorem exists_dotted_eq (n : Nat) :
    ∃ dots, (dotted n).text.toList = "site".toList ++ dots ∧ '\x00' ∉ dots := by
  induction n with
  | zero => exact ⟨[], by decide⟩
  | succ n ih =>
      obtain ⟨dots, hdots, hnul⟩ := ih
      refine ⟨dots ++ ['/', '.'], ?_, by simpa using hnul⟩
      rw [dotted, String.toList_append, hdots, List.append_assoc]
      rfl

theorem find_dotted {n : Nat}
    (hshort : (dotted n).text.utf8ByteSize ≤ pathLimit) :
    tree.find true (dotted n) = .ok (["site"], .directory) := by
  obtain ⟨dots, hdots, hnul⟩ := exists_dotted_eq n
  have hrelative : (dotted n).text.toList.head? ≠ some '/' := by
    rw [hdots]
    exact (by decide : 's' ≠ '/') ∘ Option.some.inj
  have hallowed : (dotted n).IsAllowed := by
    refine ⟨?_, ?_, hshort⟩
    · rw [hdots, List.mem_append, not_or]
      exact ⟨by decide, hnul⟩
    · rw [hdots]
      exact List.cons_ne_nil _ _
  have hdirectory : tree.item? ["site"] = some .directory := by decide
  obtain ⟨habsolute, hpieces⟩ := Path.pieces_relative hrelative
  refine isPlain.find_eq_ok_iff.mpr ⟨hallowed, ?_, hdirectory⟩
  have hsite : tree.step? (tree.start (dotted n)) "site".toList =
      some ["site"] := by
    rw [FileTree.start, habsolute]
    decide
  rw [hpieces, cutAtSlashes_dotted, List.foldlM_cons, hsite]
  refine FileTree.foldlM_idle hdirectory fun piece hpiece => ?_
  rw [List.eq_of_mem_replicate hpiece]
  rfl

/-- Through the path with dots behind it, the configuration's path is too
long. -/
theorem not_isEligible_dotted {target : Target}
    (htarget : target ∈ tree.targetsBelow {} (dotted 2045)) :
    tree.isEligible target = false := by
  have hlength := utf8ByteSize_dotted 2045
  have hroot := find_dotted (n := 2045) (by rw [hlength]; decide)
  obtain ⟨below, name, h⟩ := (isPlain.mem_targetsBelow_iff hroot).mp htarget
  rw [← Bool.not_eq_true]
  intro heligible
  obtain ⟨hselected, hshort⟩ :=
    isPlain.isSelected_of_isEligible hroot h heligible
  obtain ⟨content, hfile⟩ := hselected.is_file
  have hnames := isPlain.isName hfile
  have hitem := FileTree.mem_of_item? (by simp) hfile
  have hthree : ∀ entry ∈ tree.items, ∀ name ∈ entry.1,
      3 ≤ name.utf8ByteSize := by decide
  have hname := hthree _ hitem name (by simp)
  have hbelow : (dotted 2045).text.utf8ByteSize ≤
      ((dotted 2045).below below).text.utf8ByteSize :=
    utf8ByteSize_le_of_starts
      (Path.toList_prefix_below
        (fun inner hinner => hnames inner (by simp [hinner])) _)
  have hjoin :=
    (Path.utf8ByteSize_join (hnames name (by simp))
      ((dotted 2045).below below)).1
  rw [h.config_eq, Path.below_concat, pathLimit] at hshort
  omega

/-- The path of the site with dots before it. -/
def leading : Nat → Path
  | 0 => ⟨"./site"⟩
  | n + 1 => ⟨"./" ++ (leading n).text⟩

theorem utf8ByteSize_leading (n : Nat) :
    (leading n).text.utf8ByteSize = 6 + 2 * n := by
  induction n with
  | zero => rfl
  | succ n ih =>
      rw [leading, String.utf8ByteSize_append, ih]
      have htwo : "./".utf8ByteSize = 2 := rfl
      omega

theorem isWritten_leading (n : Nat) :
    (leading n).IsWritten ['.']
      (List.replicate n ['.'] ++ ["site".toList]) := by
  induction n with
  | zero => exact .here _ (by decide) (by decide)
  | succ n ih =>
      have htext : (leading (n + 1)).text.toList =
          ['.'] ++ '/' :: (leading n).text.toList :=
        String.toList_append
      cases ih with
      | here others hrelative hcut =>
          refine .here _ ?_ ?_
          · rw [htext]
            exact (by decide : '.' ≠ '/') ∘ Option.some.inj
          · rw [htext, Path.cutAtSlashes_append, hcut]
            rfl

theorem find_leading {n : Nat}
    (hshort : (leading n).text.utf8ByteSize ≤ pathLimit) :
    tree.find true (leading n) = .ok (["site"], .directory) := by
  have hwritten := isWritten_leading n
  have hallowed : (leading n).IsAllowed := by
    refine ⟨?_, ?_, hshort⟩
    · clear hshort hwritten
      induction n with
      | zero => decide
      | succ n ih =>
          rw [leading, String.toList_append, List.mem_append, not_or]
          exact ⟨by decide, ih⟩
    · cases hwritten with
      | here others hrelative hcut =>
          intro hnil
          rw [hnil] at hcut
          exact absurd (List.cons.inj hcut).1 (by decide)
  refine isPlain.find_eq_ok_iff.mpr ⟨hallowed, ?_, by decide⟩
  have hdots : ∀ piece ∈ ['.'] :: List.replicate n ['.'],
      Path.isIdle piece = true := by
    intro piece hpiece
    rw [← List.replicate_succ] at hpiece
    rw [List.eq_of_mem_replicate hpiece]
    rfl
  have hcurrent : tree.item? tree.current = some .directory := by decide
  rw [hwritten.pieces_eq, FileTree.start, hwritten.isAbsolute_eq, if_pos rfl,
    if_neg (by decide), ← List.append_assoc, List.foldlM_append,
    List.singleton_append, FileTree.foldlM_idle hcurrent hdots]
  decide

/-- The only project of the site stands in its own directory. -/
theorem eq_of_hasProject {place : Location} {name : String}
    (hname : tree.HasProject place name) :
    place = ["site"] ∧ name = "Storefront.csproj" := by
  obtain ⟨hproject, content, hfile⟩ := hname
  have hitem := FileTree.mem_of_item? (by simp) hfile
  have hfiles : ∀ entry ∈ tree.items, entry.2 ≠ .directory →
      entry.1 = ["site"] ++ ["Storefront.csproj"] ∨
        ∃ config ∈ ["web.config", "Web.config"], entry.1.getLast? =
          some config := by
    decide
  rcases hfiles _ hitem nofun with hplace | ⟨config, hconfig, hlast⟩
  · have hparts := List.append_inj' hplace rfl
    exact ⟨hparts.1, (List.cons.inj hparts.2).1⟩
  · rw [List.getLast?_concat] at hlast
    cases hlast
    have hnot : ∀ config ∈ ["web.config", "Web.config"],
        ((Path.mk ".").join config).isProjectFile = false ∧ IsName config := by
      decide
    obtain ⟨hfile, hnamed⟩ := hnot _ hconfig
    rw [← Path.isProjectFile_join (p := ⟨"."⟩) (by decide) hnamed, hfile]
      at hproject
    contradiction

/-- Nothing above the path has a project. -/
theorem findSome?_ancestorsFrom_here (fuel : Nat) :
    (Path.ancestorsFrom fuel ⟨"."⟩).findSome? tree.projectIn? = none := by
  have hhere : tree.projectIn? ⟨"."⟩ = none := by decide +kernel
  have hempty : tree.projectIn? ⟨""⟩ = none := by decide +kernel
  have habove : ∀ fuel, (Path.ancestorsFrom fuel ⟨""⟩).findSome?
      tree.projectIn? = none := by
    intro fuel
    cases fuel with
    | zero => rw [Path.ancestorsFrom, List.findSome?_singleton, hempty]
    | succ fuel =>
        have hparent : (Path.mk "").parent? = none := by decide
        rw [Path.ancestorsFrom, hparent, List.findSome?_singleton, hempty]
  cases fuel with
  | zero => rw [Path.ancestorsFrom, List.findSome?_singleton, hhere]
  | succ fuel =>
      have hparent : (Path.mk ".").parent? = some ⟨""⟩ := by decide
      rw [Path.ancestorsFrom, hparent, List.findSome?_cons, hhere]
      exact habove fuel

/-- No project is found at or above the path, since that of the site's project
is too long. -/
theorem nearestProject?_leading :
    tree.nearestProject? (leading 2039).bare = none := by
  have hlength := utf8ByteSize_leading 2039
  have hwritten := isWritten_leading 2039
  have hroot := find_leading (n := 2039) (by rw [hlength]; decide)
  have hbare : (leading 2039).bare = leading 2039 := by
    rw [Path.bare, hwritten.frontAndBody_eq,
      Path.dropIdleEnd_concat (by decide), hwritten.ofFrontAndBody_eq]
  have hparent : (leading 2039).parent? = some ⟨"."⟩ := by
    have hdots : ∀ piece ∈ List.replicate 2039 ['.'],
        Path.isIdle piece = true := by
      intro piece hpiece
      rw [List.eq_of_mem_replicate hpiece]
      rfl
    have hnone := Path.dropIdleEnd_append_of_idle hdots []
    rw [List.nil_append] at hnone
    rw [Path.parent?, hwritten.frontAndBody_eq]
    dsimp only
    rw [Path.dropIdleEnd_concat (by decide), List.reverse_append,
      List.reverse_singleton, List.singleton_append]
    dsimp only
    rw [List.reverse_reverse, hnone]
    rfl
  have hown : tree.projectIn? (leading 2039) = none := by
    refine Option.eq_none_iff_forall_ne_some.mpr fun project hproject => ?_
    rw [FileTree.projectIn?_of_find hroot] at hproject
    have hmem := Path.mem_sort.mp (List.mem_of_mem_head? hproject)
    obtain ⟨name, hname, hshort, _⟩ := (isPlain.mem_projects_iff hroot).mp hmem
    rw [(eq_of_hasProject hname).2] at hshort
    have hproject : IsName "Storefront.csproj" := by decide
    have hjoin := (Path.utf8ByteSize_join hproject (leading 2039)).1
    have hbytes : "Storefront.csproj".utf8ByteSize = 17 := rfl
    rw [pathLimit] at hshort
    omega
  rw [FileTree.nearestProject?, hbare, Path.ancestors]
  cases (leading 2039).text.length with
  | zero => rw [Path.ancestorsFrom, List.findSome?_singleton, hown]
  | succ fuel =>
      rw [Path.ancestorsFrom, hparent, List.findSome?_cons, hown]
      exact findSome?_ancestorsFrom_here fuel

/-- Through the path with dots before it, the project's path is too long. -/
theorem not_isEligible_leading {target : Target}
    (htarget : target ∈ tree.targetsBelow {} (leading 2039)) :
    tree.isEligible target = false := by
  have hlength := utf8ByteSize_leading 2039
  have hroot := find_leading (n := 2039) (by rw [hlength]; decide)
  obtain ⟨below, name, h⟩ := (isPlain.mem_targetsBelow_iff hroot).mp htarget
  rw [← Bool.not_eq_true]
  intro heligible
  obtain ⟨project, hproject⟩ :=
    (isPlain.isSelected_of_isEligible hroot h heligible).1.beside
  rw [List.dropLast_concat] at hproject
  have hown : below = [] :=
    List.append_cancel_left (eq_of_hasProject hproject).1
  have hpaired := h.paired
  rw [hown, Path.below_nil, nearestProject?_leading] at hpaired
  cases hpaired

/-- A selected configuration is not looked at if its own path is too long for
the system, or if that of the project beside it is. -/
theorem overlong_paths_are_not_looked_at :
    tree.IsPlain ∧ tree.IsSelected {} ["site"] ["Web.config"] ∧
      (tree.find true (dotted 2045) = .ok (["site"], .directory) ∧
        ∃ targets, tree.targets {} (dotted 2045) = .ok targets ∧
          ∀ target ∈ targets, tree.isEligible target = false) ∧
      (tree.find true (leading 2039) = .ok (["site"], .directory) ∧
        ((leading 2039).below ["Web.config"]).text.utf8ByteSize ≤ pathLimit ∧
        ∃ targets, tree.targets {} (leading 2039) = .ok targets ∧
          ∀ target ∈ targets, tree.isEligible target = false) := by
  have hlengthDotted := utf8ByteSize_dotted 2045
  have hlengthLeading := utf8ByteSize_leading 2039
  have hdotted := find_dotted (n := 2045) (by rw [hlengthDotted]; decide)
  have hleading := find_leading (n := 2039) (by rw [hlengthLeading]; decide)
  refine ⟨isPlain, isSelected_site, ⟨hdotted, _, FileTree.targets_eq hdotted,
    fun target htarget => not_isEligible_dotted htarget⟩, hleading, ?_, _,
    FileTree.targets_eq hleading,
    fun target htarget => not_isEligible_leading htarget⟩
  have hname : IsName "Web.config" := by decide
  have hjoin := (Path.utf8ByteSize_join hname (leading 2039)).2
  have hbytes : "Web.config".utf8ByteSize = 10 := rfl
  rw [Path.below_cons, Path.below_nil, pathLimit]
  omega

end TargetSelectionWitness

end WebConfigAudit
