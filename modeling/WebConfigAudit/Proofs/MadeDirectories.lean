import Mathlib.Data.List.Infix
import WebConfigAudit.Proofs.Destinations
import WebConfigAudit.Proofs.PathsAbove
/-!
Making the directories on the way to a path.  Whether or not it succeeds, the
tree only grows by directories that paths above lead to; and where it has grown,
the path ends in an empty directory that was not there before, so that nothing
can be found behind it.
-/

namespace WebConfigAudit

section Runs

variable {ε α : Type}

theorem run_get (tree : FileTree) :
    (get : ExceptT ε (StateM FileTree) FileTree).run.run tree =
      (.ok tree, tree) := rfl

theorem run_bind {β : Type} (action : ExceptT ε (StateM FileTree) α)
    (next : α → ExceptT ε (StateM FileTree) β) (tree : FileTree) :
    (action >>= next).run.run tree =
      match action.run.run tree with
      | (.ok value, mid) => (next value).run.run mid
      | (.error e, mid) => (.error e, mid) := by
  rw [ExceptT.run_bind, StateT.run_bind]
  rcases action.run.run tree with ⟨⟨e⟩ | ⟨value⟩, mid⟩
  · rfl
  · rfl

theorem run_tryCatch (action : ExceptT ε (StateM FileTree) α)
    (handle : ε → ExceptT ε (StateM FileTree) α) (tree : FileTree) :
    (tryCatch action handle).run.run tree =
      match action.run.run tree with
      | (.ok value, mid) => (.ok value, mid)
      | (.error e, mid) => (handle e).run.run mid := by
  rw [ExceptT.run_tryCatch, StateT.run_bind]
  rcases action.run.run tree with ⟨⟨e⟩ | ⟨value⟩, mid⟩
  · rfl
  · rfl

end Runs

namespace FileAction

theorem run_resolve (follow : Bool) (p : Path) (tree : FileTree) :
    (resolve follow p).run.run tree = (tree.resolve follow p, tree) := by
  rw [resolve, run_bind, run_get]
  dsimp only
  cases tree.resolve follow p with
  | ok destination => rfl
  | error e => rfl

theorem run_makeDirectory {p : Path} (hneat : p.IsNeat) (tree : FileTree) :
    (makeDirectory p).run.run tree =
      match tree.resolve false p with
      | .ok (.found _ _) => (.error .alreadyExists, tree)
      | .ok (.free parent name _) =>
          (.ok (), tree.put (parent ++ [name]) .directory)
      | .error e => (.error e, tree) := by
  rw [makeDirectory, hneat.withoutSlashes, run_bind, run_resolve]
  rcases tree.resolve false p with e | ⟨place, item⟩ | ⟨parent, name, slash⟩
  · rfl
  · rfl
  · rfl

/-- Make a directory, and accept it if the path leads to one already. -/
def makeOrAccept (p : Path) : FileAction Unit :=
  tryCatch (makeDirectory p) (orIsDirectory p)

theorem run_makeDirectoriesFrom_of_ne {p : Path} {tree : FileTree}
    (hneat : p.IsNeat) (hne : p.text.isEmpty = false)
    (hnot : tree.resolve false p ≠ .error .missing) (fuel : Nat) :
    (makeDirectoriesFrom (fuel + 1) p).run.run tree =
      (makeOrAccept p).run.run tree := by
  rw [makeDirectoriesFrom, if_neg (by simp [hne]), makeOrAccept, run_tryCatch,
    run_tryCatch, run_makeDirectory hneat]
  rcases hresolve : tree.resolve false p with
    e | ⟨place, item⟩ | ⟨parent, name, slash⟩
  · cases e <;> first | exact absurd hresolve hnot | rfl
  · rfl
  · rfl

theorem run_makeDirectoriesFrom_of_missing {p above : Path} {tree : FileTree}
    (hneat : p.IsNeat) (hne : p.text.isEmpty = false)
    (hmissing : tree.resolve false p = .error .missing)
    (habove : p.parent? = some above) (fuel : Nat) :
    (makeDirectoriesFrom (fuel + 1) p).run.run tree =
      match (makeDirectoriesFrom fuel above).run.run tree with
      | (.ok (), mid) => (makeOrAccept p).run.run mid
      | (.error e, mid) => (.error e, mid) := by
  rw [makeDirectoriesFrom, if_neg (by simp [hne]), run_tryCatch,
    run_makeDirectory hneat, hmissing]
  dsimp only
  rw [habove]
  refine (run_bind (makeDirectoriesFrom fuel above) (fun _ => makeOrAccept p)
    tree).trans ?_
  rcases (makeDirectoriesFrom fuel above).run.run tree with ⟨⟨e⟩ | ⟨⟩, mid⟩
  · rfl
  · rfl

theorem run_makeDirectoriesFrom_of_top {p : Path} {tree : FileTree}
    (hneat : p.IsNeat) (hne : p.text.isEmpty = false)
    (hmissing : tree.resolve false p = .error .missing)
    (habove : p.parent? = none) (fuel : Nat) :
    (makeDirectoriesFrom (fuel + 1) p).run.run tree =
      (.error .missing, tree) := by
  rw [makeDirectoriesFrom, if_neg (by simp [hne]), run_tryCatch,
    run_makeDirectory hneat, hmissing]
  dsimp only
  rw [habove]
  rfl

end FileAction

namespace FileTree

/-- What making a directory and those on the way to it can do to a tree.  The
way above the directory is made only where the path leads nowhere without it. -/
inductive MakesWay (tree : FileTree) :
    Path → Except FileError Unit → FileTree → Prop
  | stays (p : Path) (result : Except FileError Unit) :
      MakesWay tree p result tree
  | makes (p : Path) (parent : Location) (name : String) (slash : Bool)
      (hfree : tree.resolve false p = .ok (.free parent name slash)) :
      MakesWay tree p (.ok ()) (tree.put (parent ++ [name]) .directory)
  | failsAbove (after : FileTree) (p above : Path) (e : FileError)
      (hmissing : tree.resolve false p = .error .missing)
      (habove : p.parent? = some above)
      (hway : MakesWay tree above (.error e) after) :
      MakesWay tree p (.error e) after
  | staysBelow (mid : FileTree) (p above : Path)
      (result : Except FileError Unit)
      (hmissing : tree.resolve false p = .error .missing)
      (habove : p.parent? = some above)
      (hway : MakesWay tree above (.ok ()) mid) (hthere : result = .ok () →
        mid.isDirectory p = true) : MakesWay tree p result mid
  | makesBelow (mid : FileTree) (p above : Path) (parent : Location)
      (name : String) (slash : Bool)
      (hmissing : tree.resolve false p = .error .missing)
      (habove : p.parent? = some above)
      (hway : MakesWay tree above (.ok ()) mid)
      (hfree : mid.resolve false p = .ok (.free parent name slash)) :
      MakesWay tree p (.ok ()) (mid.put (parent ++ [name]) .directory)

section Makes

variable {tree after : FileTree} {p : Path} {result : Except FileError Unit}

theorem run_makeOrAccept_cases (hneat : p.IsNeat)
    (hrun : (FileAction.makeOrAccept p).run.run tree = (result, after)) :
    (after = tree ∧ (result = .ok () → tree.isDirectory p = true)) ∨
      ∃ parent name slash, tree.resolve false p =
        .ok (.free parent name slash) ∧
        result = .ok () ∧ after = tree.put (parent ++ [name]) .directory := by
  have haccept (e : FileError)
      (hrun : (FileAction.orIsDirectory p e).run.run tree = (result, after)) :
      after = tree ∧ (result = .ok () → tree.isDirectory p = true) := by
    rw [FileAction.orIsDirectory, run_bind, run_get] at hrun
    dsimp only at hrun
    split at hrun
    · next hthere =>
        cases hrun
        exact ⟨rfl, fun _ => hthere⟩
    · cases hrun
      exact ⟨rfl, nofun⟩
  rw [FileAction.makeOrAccept, run_tryCatch, FileAction.run_makeDirectory hneat]
    at hrun
  rcases hresolve : tree.resolve false p with
    e | ⟨place, item⟩ | ⟨parent, name, slash⟩
  · rw [hresolve] at hrun
    exact Or.inl (haccept e hrun)
  · rw [hresolve] at hrun
    exact Or.inl (haccept .alreadyExists hrun)
  · rw [hresolve] at hrun
    cases hrun
    exact Or.inr ⟨parent, name, slash, rfl, rfl, rfl⟩

theorem makesWay_of_run {fuel : Nat} (hneat : p.IsNeat)
    (hrun : (FileAction.makeDirectoriesFrom fuel p).run.run tree =
      (result, after)) :
    tree.MakesWay p result after := by
  induction fuel generalizing p tree result after with
  | zero =>
      cases hrun
      exact .stays _ _
  | succ fuel ih =>
      cases hempty : p.text.isEmpty with
      | true =>
          rw [FileAction.makeDirectoriesFrom, if_pos hempty] at hrun
          cases hrun
          exact .stays _ _
      | false =>
          by_cases hmissing : tree.resolve false p = .error .missing
          · cases habove : p.parent? with
            | none =>
                rw [FileAction.run_makeDirectoriesFrom_of_top hneat hempty
                  hmissing habove] at hrun
                cases hrun
                exact .stays _ _
            | some above =>
                rw [FileAction.run_makeDirectoriesFrom_of_missing hneat hempty
                  hmissing habove]
                  at hrun
                rcases hway :
                  (FileAction.makeDirectoriesFrom fuel above).run.run tree with
                  ⟨⟨e⟩ | ⟨⟩, mid⟩
                · rw [hway] at hrun
                  cases hrun
                  exact .failsAbove _ _ _ _ hmissing habove
                    (ih (Path.isNeat_of_parent? habove) hway)
                · rw [hway] at hrun
                  have hmid := ih (Path.isNeat_of_parent? habove) hway
                  rcases run_makeOrAccept_cases hneat hrun with
                    ⟨rfl, hthere⟩ | ⟨parent, name, slash, hfree, rfl, rfl⟩
                  · exact .staysBelow _ _ _ _ hmissing habove hmid hthere
                  · exact .makesBelow _ _ _ _ _ _ hmissing habove hmid hfree
          · rw [FileAction.run_makeDirectoriesFrom_of_ne hneat hempty hmissing]
              at hrun
            rcases run_makeOrAccept_cases hneat hrun with
              ⟨rfl, _⟩ | ⟨parent, name, slash, hfree, rfl, rfl⟩
            · exact .stays _ _
            · exact .makes _ _ _ _ hfree

end Makes

section Growth

variable {tree mid after : FileTree} {p above : Path}
  {result : Except FileError Unit}

/-- The tree has grown by directories only, and a path above the given one leads
to each of them. -/
def GrowsToward (tree : FileTree) (p : Path) (after : FileTree) : Prop :=
  ∃ made : List Location,
    tree.GrowsBy (made.map fun place => (place, .directory)) after ∧
    ∀ place ∈ made, ∃ above : Path, above.IsAbove p ∧
      after.find true above = .ok (place, .directory)

theorem GrowsToward.refl (tree : FileTree) (p : Path) :
    tree.GrowsToward p tree :=
  ⟨[], .refl tree, List.forall_mem_nil _⟩

theorem GrowsToward.keptIn (hgrows : tree.GrowsToward p after) :
    tree.KeptIn after := by
  obtain ⟨made, hmade, _⟩ := hgrows
  exact hmade.keptIn

theorem GrowsToward.room_eq (hgrows : tree.GrowsToward p after) :
    after.room = tree.room := by
  obtain ⟨made, hmade, _⟩ := hgrows
  exact hmade.room_eq

theorem GrowsToward.below (hgrows : tree.GrowsToward above after)
    (habove : p.parent? = some above) : tree.GrowsToward p after := by
  obtain ⟨made, hmade, hway⟩ := hgrows
  refine ⟨made, hmade, fun place hplace => ?_⟩
  obtain ⟨higher, hhigher, hfound⟩ := hway place hplace
  exact ⟨higher, hhigher.head habove, hfound⟩

theorem GrowsToward.put {parent : Location} {name : String} {slash : Bool}
    (hgrows : tree.GrowsToward p mid) (habove : p.parent? = some above)
    (hfree : mid.resolve false above = .ok (.free parent name slash)) :
    tree.GrowsToward p (mid.put (parent ++ [name]) .directory) := by
  obtain ⟨made, hmade, hway⟩ := hgrows
  have hput : mid.GrowsBy _ (mid.put (parent ++ [name]) .directory) :=
    growsBy_put (item?_of_resolve_free hfree).2
  refine ⟨made ++ [parent ++ [name]], ?_, fun place hplace => ?_⟩
  · rw [List.map_append]
    exact hmade.trans hput
  · rw [List.mem_append, List.mem_singleton] at hplace
    rcases hplace with hold | rfl
    · obtain ⟨higher, hhigher, hfound⟩ := hway place hold
      exact ⟨higher, hhigher, hput.keptIn.find_eq hfound⟩
    · exact ⟨above, .single habove, find_put_of_free hfree nofun fun _ => rfl⟩

/-- Only directories are made, and only on the way. -/
theorem MakesWay.growsToward (hway : tree.MakesWay above result after)
    (habove : p.parent? = some above) : tree.GrowsToward p after := by
  induction hway generalizing p with
  | stays _ _ => exact .refl tree p
  | makes _ _ _ _ hfree => exact (GrowsToward.refl tree p).put habove hfree
  | failsAbove _ _ _ _ _ hhigher _ ih => exact (ih hhigher).below habove
  | staysBelow _ _ _ _ _ hhigher _ _ ih => exact (ih hhigher).below habove
  | makesBelow _ _ _ _ _ _ _ hhigher _ hfree ih =>
      exact ((ih hhigher).below habove).put habove hfree

theorem MakesWay.keptIn (hway : tree.MakesWay p result after) :
    tree.KeptIn after := by
  induction hway with
  | stays _ _ => exact .refl tree
  | makes _ _ _ _ hfree =>
      exact (growsBy_put (item?_of_resolve_free hfree).2).keptIn
  | failsAbove _ _ _ _ _ _ _ ih => exact ih
  | staysBelow _ _ _ _ _ _ _ _ ih => exact ih
  | makesBelow _ _ _ _ _ _ _ _ _ hfree ih =>
      exact ih.trans (growsBy_put (item?_of_resolve_free hfree).2).keptIn

theorem MakesWay.isEnclosed (hway : tree.MakesWay p result after)
    (henclosed : tree.IsEnclosed) : after.IsEnclosed := by
  induction hway with
  | stays _ _ => exact henclosed
  | makes _ _ _ _ hfree =>
      obtain ⟨hdirectory, hnone⟩ := item?_of_resolve_free hfree
      exact henclosed.put hdirectory hnone _
  | failsAbove _ _ _ _ _ _ _ ih => exact ih
  | staysBelow _ _ _ _ _ _ _ _ ih => exact ih
  | makesBelow _ _ _ _ _ _ _ _ _ hfree ih =>
      obtain ⟨hdirectory, hnone⟩ := item?_of_resolve_free hfree
      exact ih.put hdirectory hnone _

/-- Nothing is made on the way to a directory that is there. -/
theorem MakesWay.eq_of_isDirectory (hway : tree.MakesWay p result after)
    (hthere : tree.isDirectory p = true) : after = tree := by
  obtain ⟨place, hfound⟩ := isDirectory_iff.mp hthere
  obtain ⟨inside, item, hresolve⟩ := exists_resolve_of_find hfound
  cases hway with
  | stays _ _ => rfl
  | makes _ _ _ _ hfree =>
      rw [hresolve] at hfree
      cases hfree
  | failsAbove _ _ _ _ hmissing _ _ =>
      rw [hresolve] at hmissing
      cases hmissing
  | staysBelow _ _ _ _ hmissing _ _ _ =>
      rw [hresolve] at hmissing
      cases hmissing
  | makesBelow _ _ _ _ _ _ hmissing _ _ _ =>
      rw [hresolve] at hmissing
      cases hmissing

end Growth

section Upwards

variable {tree mid after : FileTree} {p above : Path}
  {result : Except FileError Unit} {place : Location} {item : Item}

/-- Whether the pieces lead from the start of a path to a directory. -/
def leadsToDirectory (tree : FileTree) (p : Path) (pieces : List (List Char)) :
    Bool :=
  match tree.walk true linkLimit (tree.start p) pieces with
  | .ok (.found _ .directory) => true
  | _ => false

/-- Wherever the path steps up, it steps up out of a directory of the tree. -/
def StepsUpWithin (tree : FileTree) (p : Path) : Prop :=
  ∀ before, before ++ [['.', '.']] <+: p.stepPieces →
    tree.leadsToDirectory p before = true

instance (tree : FileTree) (p : Path) : Decidable (tree.StepsUpWithin p) :=
  decidable_of_iff
    (∀ before ∈ p.stepPieces.inits, before ++ [['.', '.']] <+: p.stepPieces →
      tree.leadsToDirectory p before = true)
    ⟨fun hall before hbefore =>
        hall before ((List.mem_inits _ _).mpr
          ((List.prefix_append _ _).trans hbefore)) hbefore,
      fun hup before _ => hup before⟩

theorem leadsToDirectory_iff {pieces : List (List Char)} :
    tree.leadsToDirectory p pieces = true ↔
      ∃ place, tree.Leads true linkLimit (tree.start p) pieces
        (.found place .directory) := by
  simp only [← walk_eq_ok_iff]
  rw [leadsToDirectory]
  split
  · next place hwalk => exact iff_of_true rfl ⟨place, hwalk⟩
  · next hother =>
      exact iff_of_false Bool.false_ne_true fun ⟨place, hwalk⟩ =>
        hother place hwalk

theorem StepsUpWithin.of_parent? (hup : tree.StepsUpWithin p)
    (habove : p.parent? = some above) : tree.StepsUpWithin above := by
  intro before hbefore
  have hstarts := hbefore.trans (Path.prefix_stepPieces_of_parent? habove)
  have hleads := hup before hstarts
  by_cases hne : above.text.toList = []
  · rw [Path.stepPieces_eq_nil hne, List.prefix_nil] at hbefore
    simp at hbefore
  · rwa [leadsToDirectory, start, (Path.exists_last_step habove hne).1, ← start]

/-- The path leads to an empty directory that the tree did not have. -/
def LeadsToNew (tree : FileTree) (p : Path) (after : FileTree) : Prop :=
  ∃ place, after.find true p = .ok (place, .directory) ∧
    tree.item? place = none ∧
    ∀ name, after.item? (place ++ [name]) = none

theorem leadsToNew_put {parent : Location} {name : String} {slash : Bool}
    (hkept : tree.KeptIn mid) (henclosed : mid.IsEnclosed)
    (hfree : mid.resolve false p = .ok (.free parent name slash)) :
    tree.LeadsToNew p (mid.put (parent ++ [name]) .directory) := by
  obtain ⟨hdirectory, hnone⟩ := item?_of_resolve_free hfree
  refine ⟨parent ++ [name], find_put_of_free hfree nofun fun _ =>
      rfl, hkept.item?_eq_none hnone,
    fun inside => ?_⟩
  rw [item?_put (List.append_ne_nil_of_right_ne_nil _ (List.cons_ne_nil _ _)),
    if_neg (by simp)]
  refine henclosed.item?_below ?_ inside
  rw [hnone]
  exact nofun

/-- A path that steps up only out of directories of the tree is lost behind a
new directory. -/
theorem LeadsToNew.find_ne (hnew : tree.LeadsToNew above after)
    (hkept : tree.KeptIn after) (habove : p.parent? = some above)
    (hup : tree.StepsUpWithin p) : after.find true p ≠ .ok (place, item) := by
  intro hfound
  obtain ⟨new, hdirectory, hnone, hempty⟩ := hnew
  obtain ⟨habsolute, before, piece, idles, hpieces, hstep, hbefore⟩ :=
    Path.exists_last_step habove (isAllowed_of_find hdirectory).ne_nil
  have hway : after.walk true linkLimit (after.start p) before =
      .ok (.found new .directory) := by
    have hleads := (find_eq_ok_iff_leads.mp hdirectory).2.same_steps rfl hbefore
    rw [start, habsolute, ← start] at hleads
    exact walk_eq_ok_iff.mpr hleads
  have hwalk := (resolve_eq_ok_iff.mp (find_eq_ok_iff_resolve.mp hfound)).2
  rw [hpieces] at hwalk
  obtain ⟨left, mid, there, hmid, hothers⟩ := exists_walk_append hwalk
  rw [hway] at hmid
  cases hmid
  rw [hothers] at hwalk
  cases leads_of_walk hwalk with
  | idle _ _ _ _ _ _ hidle _ =>
      rw [hstep] at hidle
      cases hidle
  | up _ _ _ _ _ _ =>
      -- The step upwards was one out of a directory of the tree, and the new
      -- one is not.
      have hstarts : before.filter (fun piece => !Path.isIdle piece) ++
            [['.', '.']] <+:
          p.stepPieces := by
        rw [Path.stepPieces, hpieces, List.filter_append,
          List.filter_cons_of_pos rfl, List.prefix_append_right_inj]
        exact List.prefix_append [['.', '.']] _
      obtain ⟨old, hold⟩ := leadsToDirectory_iff.mp (hup _ hstarts)
      have hsame : after.Leads true linkLimit (tree.start p) before
          (.found old .directory) :=
        (hold.kept hkept rfl).same_steps rfl (by simp)
      rw [← hkept.start_eq, ← walk_eq_ok_iff, hway] at hsame
      cases hsame
      rw [hold.item?_eq rfl] at hnone
      cases hnone
  | down _ _ _ _ _ _ _ _ hitem _ _ =>
      rw [hempty] at hitem
      cases hitem
  | stop _ _ _ _ _ _ _ hfollow => cases hfollow
  | through _ _ _ _ _ _ _ _ hitem _ _ =>
      rw [hempty] at hitem
      cases hitem

/-- When the way is made, the tree is as it was or the path leads to a new
directory. -/
theorem MakesWay.eq_or_leadsToNew (hway : tree.MakesWay p result after)
    (hmade : result = .ok ()) (henclosed : tree.IsEnclosed)
    (hup : tree.StepsUpWithin p) : after = tree ∨ tree.LeadsToNew p after := by
  induction hway with
  | stays _ _ => exact Or.inl rfl
  | makes _ _ _ _ hfree =>
      exact Or.inr (leadsToNew_put (.refl tree) henclosed hfree)
  | failsAbove _ _ _ _ _ _ _ _ => cases hmade
  | staysBelow mid _ _ _ _ habove hway hthere ih =>
      rcases ih rfl (hup.of_parent? habove) with rfl | hnew
      · exact Or.inl rfl
      · obtain ⟨place, hfound⟩ := isDirectory_iff.mp (hthere hmade)
        exact absurd hfound (hnew.find_ne hway.keptIn habove hup)
  | makesBelow _ _ _ _ _ _ _ _ hway hfree _ =>
      exact Or.inr
        (leadsToNew_put hway.keptIn (hway.isEnclosed henclosed) hfree)

end Upwards

end FileTree

end WebConfigAudit
