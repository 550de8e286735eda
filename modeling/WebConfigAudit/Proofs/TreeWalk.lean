import WebConfigAudit.FileTree.Walk
import WebConfigAudit.Proofs.PathResolution
/-!
What a walk through a tree finds.  It names no path twice, whatever links there
are, and a path that it finds leads down by names to the item that stands under
these names, unless there is a link on the way.  In a tree without links it
finds each file below the directory it starts in, if it enters every directory
on the way and the paths of these are short enough to be looked into.
-/

namespace WebConfigAudit

namespace FileTree

variable {tree : FileTree} {enter : String → Bool} {place : Location}
  {root p path : Path} {fuel : Nat} {above : List Location} {name : String}

section Links

/-- What a walk finds under one name in a directory. -/
def foundUnder (tree : FileTree) (enter : String → Bool) (fuel : Nat)
    (above : List Location) (place : Location) (directory : Path)
    (name : String) : List Path :=
  let path := directory.join name
  let descend (inside : Location) : List Path :=
    if enter name then tree.filesFrom enter fuel (inside :: above) path else []
  match tree.item? (place ++ [name]) with
  | some (.file _) => [path]
  | some .directory => descend (place ++ [name])
  | some (.link _) =>
      match tree.find true path with
      | .ok (_, .file _) => [path]
      | .ok (inside, .directory) =>
          if above.contains inside then [] else descend inside
      | _ => []
  | none => []

theorem filesFrom_succ (hfound : tree.find true p = .ok (place, .directory)) :
    tree.filesFrom enter (fuel + 1) above p =
      (tree.namesAt place).flatMap
        (tree.foundUnder enter fuel above place p) := by
  rw [filesFrom, hfound]
  rfl

theorem exists_find_of_mem_filesFrom
    (hpath : path ∈ tree.filesFrom enter fuel above p) :
    ∃ place, tree.find true p = .ok (place, .directory) := by
  cases fuel with
  | zero => contradiction
  | succ fuel =>
      rw [filesFrom] at hpath
      split at hpath
      · next place hfound => exact ⟨place, hfound⟩
      · contradiction

/-- Under a name there is nothing, or the path by that name, or what a walk
finds in the directory that this path leads to. -/
theorem foundUnder_cases (tree : FileTree) (enter : String → Bool) (fuel : Nat)
    (above : List Location) (place : Location) (p : Path) (name : String) :
    let found := tree.foundUnder enter fuel above place p name
    found = [] ∨
      (found = [p.join name] ∧ tree.item? (place ++ [name]) ≠ some .directory) ∨
      ∃ inside, enter name = true ∧
        found = tree.filesFrom enter fuel (inside :: above) (p.join name) := by
  have hdescend : ∀ inside,
      let descended :=
        if enter name then
          tree.filesFrom enter fuel (inside :: above) (p.join name) else []
      descended = [] ∨ ∃ inside, enter name = true ∧
        descended = tree.filesFrom enter fuel (inside :: above)
          (p.join name) := by
    intro inside descended
    by_cases henter : enter name = true
    · exact Or.inr ⟨inside, henter, if_pos henter⟩
    · exact Or.inl (if_neg henter)
  dsimp only [foundUnder]
  cases tree.item? (place ++ [name]) with
  | none => exact Or.inl rfl
  | some item =>
      cases item with
      | file content => exact Or.inr (Or.inl ⟨rfl, nofun⟩)
      | directory => exact (hdescend (place ++ [name])).imp_right Or.inr
      | link target =>
          dsimp only
          split
          · exact Or.inr (Or.inl ⟨rfl, nofun⟩)
          · next inside hinside =>
              split
              · exact Or.inl rfl
              · exact (hdescend inside).imp_right Or.inr
          · exact Or.inl rfl

/-- One of the places on the way down by names is a symbolic link. -/
def PassesLink (tree : FileTree) (place : Location) (names : List String) :
    Prop :=
  ∃ way target, way ≠ [] ∧ way <+: names ∧
    tree.item? (place ++ way) = some (.link target)

theorem passesLink_cons_of_link {target : String} (names : List String)
    (hlink : tree.item? (place ++ [name]) = some (.link target)) :
    tree.PassesLink place (name :: names) :=
  ⟨[name], target, List.cons_ne_nil _ _, List.prefix_append [name] names, hlink⟩

theorem PassesLink.cons {names : List String}
    (hpasses : tree.PassesLink (place ++ [name]) names) :
    tree.PassesLink place (name :: names) := by
  obtain ⟨way, target, _, hway, hlink⟩ := hpasses
  refine ⟨name :: way, target, List.cons_ne_nil _ _,
    List.cons_prefix_cons.mpr ⟨rfl, hway⟩, ?_⟩
  rwa [List.append_cons]

/-- A path leads down from a directory by names, to the item that stands under
them if there is no link on the way. -/
structure LeadsBelow (tree : FileTree) (place : Location) (p : Path)
    (names : List String) (path : Path) : Prop where
  named : ∀ name ∈ names, IsName name
  path_eq : path = p.below names
  ends : tree.PassesLink place names ∨
    ∀ inside item, tree.find true path = .ok (inside, item) →
      inside = place ++ names

theorem leadsBelow_join (hfound : tree.find true p = .ok (place, .directory))
    (hname : IsName name) : tree.LeadsBelow place p [name] (p.join name) where
  named := List.forall_mem_singleton.mpr hname
  path_eq := rfl
  ends := by
    by_cases hlink : ∃ target, tree.item? (place ++ [name]) =
        some (.link target)
    · obtain ⟨target, hlink⟩ := hlink
      exact Or.inl (passesLink_cons_of_link [] hlink)
    · rw [not_exists] at hlink
      exact Or.inr fun inside item hjoin =>
        eq_of_find_join hfound hname hlink hjoin

theorem LeadsBelow.cons {inside : Location} {names : List String}
    (hbelow : tree.LeadsBelow inside (p.join name) names path)
    (hname : IsName name) (hfound : tree.find true p = .ok (place, .directory))
    (hinside : tree.find true (p.join name) = .ok (inside, .directory)) :
    tree.LeadsBelow place p (name :: names) path where
  named := List.forall_mem_cons.mpr ⟨hname, hbelow.named⟩
  path_eq := hbelow.path_eq
  ends := by
    by_cases hlink : ∃ target, tree.item? (place ++ [name]) =
        some (.link target)
    · obtain ⟨target, hlink⟩ := hlink
      exact Or.inl (passesLink_cons_of_link names hlink)
    · rw [not_exists] at hlink
      have hends := hbelow.ends
      rw [eq_of_find_join hfound hname hlink hinside, List.append_assoc]
        at hends
      exact hends.imp_left PassesLink.cons

/-- What is found under a name leads down by that name first, if what a walk
finds leads down at all. -/
theorem exists_leadsBelow_of_mem_foundUnder
    (hwalk : ∀ {above p place}, tree.find true p = .ok (place, .directory) →
      path ∈ tree.filesFrom enter fuel above p →
      ∃ names, tree.LeadsBelow place p names path)
    (hfound : tree.find true p = .ok (place, .directory)) (hname : IsName name)
    (hpath : path ∈ tree.foundUnder enter fuel above place p name) :
    ∃ names, tree.LeadsBelow place p (name :: names) path := by
  rcases tree.foundUnder_cases enter fuel above place p name with
    hnone | ⟨hone, _⟩ | ⟨_, _, hall⟩
  · rw [hnone] at hpath
    contradiction
  · rw [hone, List.mem_singleton] at hpath
    exact ⟨[], hpath ▸ leadsBelow_join hfound hname⟩
  · rw [hall] at hpath
    obtain ⟨inside, hinside⟩ := exists_find_of_mem_filesFrom hpath
    obtain ⟨names, hbelow⟩ := hwalk hinside hpath
    exact ⟨names, hbelow.cons hname hfound hinside⟩

/-- What a walk finds leads down from the directory where it starts. -/
theorem HasNames.exists_leadsBelow (hnames : tree.HasNames)
    (hfound : tree.find true p = .ok (place, .directory))
    (hpath : path ∈ tree.filesFrom enter fuel above p) :
    ∃ names, tree.LeadsBelow place p names path := by
  induction fuel generalizing p place above with
  | zero => contradiction
  | succ fuel ih =>
      rw [filesFrom_succ hfound, List.mem_flatMap] at hpath
      obtain ⟨name, hname, hpath⟩ := hpath
      obtain ⟨names, hbelow⟩ := exists_leadsBelow_of_mem_foundUnder ih hfound
        (hnames.isName_of_mem_namesAt hname) hpath
      exact ⟨name :: names, hbelow⟩

/-- A walk finds no path twice. -/
theorem HasNames.nodup_filesFrom (hnames : tree.HasNames) :
    (tree.filesFrom enter fuel above p).Nodup := by
  induction fuel generalizing p above with
  | zero => exact List.nodup_nil
  | succ fuel ih =>
      by_cases hfound : ∃ place, tree.find true p = .ok (place, .directory)
      · obtain ⟨place, hfound⟩ := hfound
        have hne := (isAllowed_of_find hfound).ne_nil
        rw [filesFrom_succ hfound, List.nodup_flatMap]
        refine ⟨fun name _ => ?_, (tree.nodup_namesAt place).imp_of_mem ?_⟩
        · rcases tree.foundUnder_cases enter fuel above place p name with
            hnone | ⟨hone, _⟩ | ⟨_, _, hall⟩
          · exact hnone ▸ List.nodup_nil
          · exact hone ▸ List.nodup_singleton _
          · exact hall ▸ ih
        · -- What two names lead to differs in the step behind those of the
          -- directory.
          intro name other hname hother hdiffer path hpath hpath'
          obtain ⟨names, hbelow⟩ :=
            exists_leadsBelow_of_mem_foundUnder hnames.exists_leadsBelow
              hfound (hnames.isName_of_mem_namesAt hname) hpath
          obtain ⟨others, hbelow'⟩ :=
            exists_leadsBelow_of_mem_foundUnder hnames.exists_leadsBelow
              hfound (hnames.isName_of_mem_namesAt hother) hpath'
          have hsame :=
            congrArg Path.components (hbelow.path_eq.symm.trans hbelow'.path_eq)
          have hlists :=
            Path.below_injective hne hbelow.named hbelow'.named hsame
          exact hdiffer (List.cons.inj hlists).1
      · rw [List.eq_nil_iff_forall_not_mem.mpr fun path hpath =>
          hfound (exists_find_of_mem_filesFrom hpath)]
        exact List.nodup_nil

end Links

section Plain

/-- A walk from a directory comes to a file: it enters the directories on the
way down to it, and can open the last of them. -/
structure ComesTo (tree : FileTree) (enter : String → Bool) (place : Location)
    (directory : Path) (below : List String) (name : String) : Prop where
  is_file : ∃ content, tree.item? (place ++ (below ++ [name])) =
    some (.file content)
  entered : ∀ inner ∈ below, enter inner = true
  opened : (directory.below below).text.utf8ByteSize ≤ pathLimit

theorem ComesTo.isName {below : List String}
    (hcomes : tree.ComesTo enter place p below name) (hplain : tree.IsPlain) :
    ∀ inner ∈ below ++ [name], IsName inner := by
  obtain ⟨content, hfile⟩ := hcomes.is_file
  exact fun inner hinner =>
    hplain.isName hfile inner (List.mem_append_right _ hinner)

/-- In a tree without links, a walk finds the files that it comes to. -/
theorem IsPlain.mem_filesFrom_iff (hplain : tree.IsPlain)
    (hfound : tree.find true p = .ok (place, .directory)) :
    path ∈ tree.filesFrom enter fuel above p ↔
      ∃ below name, tree.ComesTo enter place p below name ∧
      below.length < fuel ∧
        path = p.below (below ++ [name]) := by
  induction fuel generalizing p place above with
  | zero => simp [filesFrom]
  | succ fuel ih =>
      rw [filesFrom_succ hfound, List.mem_flatMap]
      constructor
      · rintro ⟨name, hname, hpath⟩
        have hnamed := hplain.isName_of_mem_namesAt hname
        rcases tree.foundUnder_cases enter fuel above place p name with
          hnone | ⟨hone, hnot⟩ | ⟨_, henter, hall⟩
        · rw [hnone] at hpath
          contradiction
        · rw [hone, List.mem_singleton] at hpath
          have hshort := (isAllowed_of_find hfound).short
          refine ⟨[], name, ⟨?_, List.forall_mem_nil _, hshort⟩,
            Nat.succ_pos _, hpath⟩
          obtain ⟨item, hitem⟩ := mem_namesAt.mp hname
          cases item with
          | file content => exact ⟨content, hitem⟩
          | directory => exact absurd hitem hnot
          | link target => exact absurd hitem (hplain.item?_ne_link target)
        · rw [hall] at hpath
          obtain ⟨inside, hinside⟩ := exists_find_of_mem_filesFrom hpath
          obtain ⟨_, rfl, _⟩ := (hplain.find_join_iff hfound hnamed).mp hinside
          obtain ⟨below, file, hcomes, hlength, rfl⟩ := (ih hinside).mp hpath
          refine ⟨name :: below, file, ⟨?_, ?_, hcomes.opened⟩,
            Nat.succ_lt_succ hlength, rfl⟩
          · rw [List.cons_append, List.append_cons]
            exact hcomes.is_file
          · exact List.forall_mem_cons.mpr ⟨henter, hcomes.entered⟩
      · rintro ⟨below, file, hcomes, hlength, rfl⟩
        obtain ⟨content, hfile⟩ := hcomes.is_file
        cases below with
        | nil =>
            refine ⟨file, mem_namesAt.mpr ⟨_, hfile⟩, ?_⟩
            rw [List.nil_append] at hfile
            rw [foundUnder, hfile]
            exact List.mem_singleton.mpr rfl
        | cons inner below =>
            obtain ⟨henter, hentered⟩ := List.forall_mem_cons.mp hcomes.entered
            have hnames := hplain.isName hfile
            rw [List.cons_append, List.append_cons] at hfile
            have hdirectory : tree.item? (place ++ [inner]) = some .directory :=
              hplain.directory_on_the_way (by simp) hfile
            have hnamed : IsName inner := hnames inner (by simp)
            have hbelow : ∀ name ∈ below, IsName name :=
              fun name hname => hnames name (by simp [hname])
            have hshort : (p.join inner).text.utf8ByteSize ≤ pathLimit :=
              (utf8ByteSize_le_of_starts
                (Path.toList_prefix_below hbelow _)).trans hcomes.opened
            have hinside :=
              (hplain.find_join_iff hfound hnamed).mpr ⟨hshort, rfl, hdirectory⟩
            refine ⟨inner, mem_namesAt.mpr ⟨_, hdirectory⟩, ?_⟩
            rw [foundUnder, hdirectory]
            dsimp only
            rw [if_pos henter]
            exact (ih hinside).mpr
              ⟨below, file, ⟨⟨content, hfile⟩, hentered, hcomes.opened⟩,
                Nat.lt_of_succ_lt_succ hlength, rfl⟩

/-- No file stands too deep for a walk. -/
theorem IsPlain.length_lt_depthLimit (hplain : tree.IsPlain)
    {below : List String} {item : Item}
    (hitem : tree.item? (place ++ (below ++ [name])) = some item) :
    below.length < tree.depthLimit := by
  have hlength := hplain.length_le hitem
  rw [List.length_append, List.length_append, List.length_singleton] at hlength
  have hlimit : tree.items.length + 2 ≤ tree.depthLimit := Nat.le_mul_self _
  omega

theorem filesBelow_eq (hfound : tree.find true root = .ok (place, .directory)) :
    tree.filesBelow enter root =
      tree.filesFrom enter tree.depthLimit [place] root := by
  rw [filesBelow, hfound]

theorem IsPlain.mem_filesBelow_iff (hplain : tree.IsPlain)
    (hfound : tree.find true root = .ok (place, .directory)) :
    path ∈ tree.filesBelow enter root ↔
      ∃ below name, tree.ComesTo enter place root below name ∧
        path = root.below (below ++ [name]) := by
  rw [filesBelow_eq hfound, hplain.mem_filesFrom_iff hfound]
  constructor
  · rintro ⟨below, name, hcomes, _, hpath⟩
    exact ⟨below, name, hcomes, hpath⟩
  · rintro ⟨below, name, hcomes, hpath⟩
    obtain ⟨content, hfile⟩ := hcomes.is_file
    exact ⟨below, name, hcomes, hplain.length_lt_depthLimit hfile, hpath⟩

theorem SameItems.comesTo_iff {other : FileTree} (hsame : tree.SameItems other)
    {below : List String} :
    other.ComesTo enter place root below name ↔
      tree.ComesTo enter place root below name := by
  constructor
  · exact fun h =>
      ⟨by simpa only [hsame.item?_eq] using h.is_file, h.entered, h.opened⟩
  · exact fun h =>
      ⟨by simpa only [hsame.item?_eq] using h.is_file, h.entered, h.opened⟩

/-- The files below a directory do not depend on the order of listing. -/
theorem SameItems.filesBelow_perm {other : FileTree}
    (hsame : tree.SameItems other) (hplain : tree.IsPlain)
    (hfound : tree.find true root = .ok (place, .directory)) :
    (other.filesBelow enter root).Perm (tree.filesBelow enter root) := by
  have hplain' := hsame.isPlain hplain
  have hfound' : other.find true root = .ok (place, .directory) :=
    (hsame.find_eq true root).trans hfound
  rw [List.perm_ext_iff_of_nodup]
  · intro path
    rw [hplain.mem_filesBelow_iff hfound, hplain'.mem_filesBelow_iff hfound']
    simp only [hsame.comesTo_iff]
  · rw [filesBelow_eq hfound']
    exact hplain'.hasNames.nodup_filesFrom
  · rw [filesBelow_eq hfound]
    exact hplain.hasNames.nodup_filesFrom

end Plain

end FileTree

end WebConfigAudit
