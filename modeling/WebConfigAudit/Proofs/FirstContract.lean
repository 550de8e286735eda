import WebConfigAudit.CommandLine.Init
import WebConfigAudit.Proofs.LineTable
import WebConfigAudit.Proofs.MadeDirectories
/-!
Writing the first contract.  The run writes it where nothing can be found yet,
or it fails; either way what stands in the file tree is kept, and all that is
added besides the contract are directories above its path.  These are not taken
away again when the run fails.
-/

namespace WebConfigAudit

/-- The first bytes of a text are a text if no character is cut. -/
theorem front?_eq_some_iff {room : Nat} {text front : String} :
    front? room text = some front ↔
      front.toList <+: text.toList ∧ front.utf8ByteSize = room := by
  have hbytes (cs : List Char) :
      (String.ofList cs).utf8ByteSize = Text.byteCount cs := rfl
  rw [front?, Option.map_eq_some_iff]
  constructor
  · rintro ⟨⟨cs, rest⟩, hsplit, rfl⟩
    obtain ⟨htext, rfl⟩ := Text.splitAtByte?_eq_some_iff.mp hsplit
    rw [String.toList_ofList, htext]
    exact ⟨List.prefix_append cs rest, hbytes cs⟩
  · rintro ⟨⟨rest, htext⟩, rfl⟩
    refine ⟨(front.toList, rest), ?_, String.ofList_toList⟩
    rw [Text.splitAtByte?_eq_some_iff, ← hbytes, String.ofList_toList]
    exact ⟨htext.symm, rfl⟩

namespace FileTree

/-- What writing a file can do to a tree: nothing, or to put the file where its
path leads. -/
inductive Writes (tree : FileTree) (p : Path) (content : Option String) :
    Except FileError Unit → FileTree → Prop
  | fails (e : FileError) : Writes tree p content (.error e) tree
  | replaces (place : Location) (old : Option String)
      (hfound : tree.find true p = .ok (place, .file old)) :
      Writes tree p content (.ok ()) (tree.put place (.file content))
  | creates (parent : Location) (name : String)
      (hfree : tree.resolve true p = .ok (.free parent name false)) :
      Writes tree p content (.ok ())
        (tree.put (parent ++ [name]) (.file content))

section Writing

variable {tree after : FileTree} {p : Path} {content : Option String}
  {result : Except FileError Unit}

theorem exists_run_write_of_slash (hslash : FileAction.endsWithSlash p = true)
    (tree : FileTree) (content : Option String) :
    ∃ e, (FileAction.write p content).run.run tree = (.error e, tree) := by
  rw [FileAction.write, if_pos hslash]
  dsimp only
  split
  · exact ⟨_, rfl⟩
  · rw [run_bind, FileAction.run_resolve]
    cases tree.resolve false (FileAction.withoutSlashes p) with
    | error e => exact ⟨_, rfl⟩
    | ok destination => exact ⟨_, rfl⟩

theorem writes_of_run
    (hrun : (FileAction.write p content).run.run tree = (result, after)) :
    tree.Writes p content result after := by
  by_cases hslash : FileAction.endsWithSlash p = true
  · obtain ⟨e, hfails⟩ := exists_run_write_of_slash hslash tree content
    rw [hfails] at hrun
    cases hrun
    exact .fails e
  · rw [FileAction.write, if_neg hslash] at hrun
    dsimp only at hrun
    rw [run_bind, FileAction.run_resolve] at hrun
    rcases hresolve : tree.resolve true p with
      e | ⟨place, item⟩ | ⟨parent, name, slash⟩
    · rw [hresolve] at hrun
      cases hrun
      exact .fails e
    · rw [hresolve] at hrun
      cases item with
      | file old =>
          cases hrun
          exact .replaces place old (find_eq_ok_iff_resolve.mpr hresolve)
      | directory =>
          cases hrun
          exact .fails _
      | link target =>
          cases hrun
          exact .fails _
    · rw [hresolve] at hrun
      cases slash with
      | true =>
          cases hrun
          exact .fails _
      | false =>
          cases hrun
          exact .creates parent name hresolve

/-- After a file is written, its path leads to it, and nothing else has
changed. -/
theorem Writes.exists_place (hwrites : tree.Writes p content result after)
    (hok : result = .ok ()) :
    ∃ place, after.find true p = .ok (place, .file content) ∧
      (∀ other, other ≠ place → after.item? other = tree.item? other) ∧
      (tree.isPresent p = false → tree.KeptIn after) := by
  have hput {place : Location}
      (hfound : (tree.put place (.file content)).find true p =
        .ok (place, .file content)) :
      ∀ other, other ≠ place →
        (tree.put place (.file content)).item? other = tree.item? other := by
    have hplace : place ≠ [] := by
      rintro rfl
      cases item?_of_find hfound
    exact fun other hother => (item?_put hplace).trans (if_neg hother)
  cases hwrites with
  | fails _ => cases hok
  | replaces place old hfound =>
      have hafter := find_put_of_file hfound content
      refine ⟨place, hafter, hput hafter, fun hnot => ?_⟩
      rw [isPresent_iff.mpr ⟨place, _, hfound⟩] at hnot
      cases hnot
  | creates parent name hfree =>
      have hafter : (tree.put (parent ++ [name]) (.file content)).find true p =
          .ok (parent ++ [name], .file content) :=
        find_put_of_free hfree nofun nofun
      exact ⟨parent ++ [name], hafter, hput hafter,
        fun _ => (growsBy_put (item?_of_resolve_free hfree).2).keptIn⟩

/-- What writing a text to a file can do to a tree: nothing, or to put there as
much of the text as there is room for. -/
inductive WritesText (tree : FileTree) (p : Path) (text : String) :
    Except FileError Unit → FileTree → Prop
  | fails (e : FileError) : WritesText tree p text (.error e) tree
  | finishes (after : FileTree)
      (hroom : ∀ room ∈ tree.room, text.utf8ByteSize ≤ room)
      (hwrites : tree.Writes p (some text) (.ok ()) after) :
      WritesText tree p text (.ok ()) after
  | breaksOff (room : Nat) (after : FileTree) (hroom : tree.room = some room)
      (hshort : room < text.utf8ByteSize)
      (hwrites : tree.Writes p (front? room text) (.ok ()) after) :
      WritesText tree p text (.error .diskFull) after

theorem run_writeText_of_fits {text : String}
    (hfits : ∀ room ∈ tree.room, text.utf8ByteSize ≤ room) :
    (FileAction.writeText p text).run.run tree =
      (FileAction.write p (some text)).run.run tree := by
  have hroom :
      tree.room.filter (fun room => decide (room < text.utf8ByteSize)) =
        none := by
    rw [Option.filter_eq_none_iff]
    intro room hsome
    rw [decide_eq_true_eq, Nat.not_lt]
    exact hfits room hsome
  rw [FileAction.writeText, run_bind, run_get]
  dsimp only
  rw [hroom]

theorem run_writeText_of_short {text : String} {room : Nat}
    (hroom : tree.room = some room) (hshort : room < text.utf8ByteSize) :
    (FileAction.writeText p text).run.run tree =
      match (FileAction.write p (front? room text)).run.run tree with
      | (.ok (), after) => (.error .diskFull, after)
      | (.error e, after) => (.error e, after) := by
  have hfull :
      tree.room.filter (fun room => decide (room < text.utf8ByteSize)) =
        some room :=
    Option.filter_eq_some_iff.mpr ⟨hroom, decide_eq_true hshort⟩
  rw [FileAction.writeText, run_bind, run_get]
  dsimp only
  rw [hfull]
  dsimp only
  rw [run_bind]
  rcases (FileAction.write p (front? room text)).run.run tree with
    ⟨⟨e⟩ | ⟨⟩, after⟩
  · rfl
  · rfl

theorem writesText_of_run {text : String}
    (hrun : (FileAction.writeText p text).run.run tree = (result, after)) :
    tree.WritesText p text result after := by
  by_cases hfits : ∀ room ∈ tree.room, text.utf8ByteSize ≤ room
  · rw [run_writeText_of_fits hfits] at hrun
    cases writes_of_run hrun with
    | fails e => exact .fails e
    | replaces place old hfound =>
        exact .finishes _ hfits (.replaces place old hfound)
    | creates parent name hfree =>
        exact .finishes _ hfits (.creates parent name hfree)
  · push Not at hfits
    obtain ⟨room, hroom, hshort⟩ := hfits
    rw [run_writeText_of_short hroom hshort] at hrun
    rcases hwrite : (FileAction.write p (front? room text)).run.run tree with
      ⟨⟨e⟩ | ⟨⟩, written⟩
    · rw [hwrite] at hrun
      cases hrun
      cases writes_of_run hwrite
      exact .fails e
    · rw [hwrite] at hrun
      cases hrun
      exact .breaksOff room _ hroom hshort (writes_of_run hwrite)

end Writing

/-- What making the directory for a file can do to a tree, where the file needs
one. -/
inductive MakesDirectoryFor (tree : FileTree) (path : Path) :
    Except FileError Unit → FileTree → Prop
  | needless (hnone : directoryFor path = none) :
      MakesDirectoryFor tree path (.ok ()) tree
  | makes (directory : Path) (result : Except FileError Unit) (after : FileTree)
      (hsome : directoryFor path = some directory)
      (hway : tree.MakesWay directory result after) :
      MakesDirectoryFor tree path result after

/-- What writing the contract to start from can do to a tree. -/
inductive WritesTemplate (tree : FileTree) (path : Path) :
    Except InitError Unit → FileTree → Prop
  | refuses (hthere : tree.isPresent path = true) :
      WritesTemplate tree path (.error (.present path)) tree
  | failsBefore (after : FileTree) (e : FileError)
      (hnot : tree.isPresent path = false)
      (hway : tree.MakesDirectoryFor path (.error e) after) :
      WritesTemplate tree path (.error (.directory e)) after
  | fails (mid after : FileTree) (e : FileError)
      (hnot : tree.isPresent path = false)
      (hway : tree.MakesDirectoryFor path (.ok ()) mid)
      (hwrites : mid.WritesText path contractTemplate (.error e) after) :
      WritesTemplate tree path (.error (.write e)) after
  | writes (mid after : FileTree) (hnot : tree.isPresent path = false)
      (hway : tree.MakesDirectoryFor path (.ok ()) mid)
      (hwrites : mid.WritesText path contractTemplate (.ok ()) after) :
      WritesTemplate tree path (.ok ()) after

section Template

variable {tree after : FileTree} {path directory : Path}
  {result : Except FileError Unit}

theorem parent?_of_directoryFor (hsome : directoryFor path = some directory) :
    path.parent? = some directory :=
  (Option.filter_eq_some_iff.mp hsome).1

theorem run_orFail {α : Type} (wrap : FileError → InitError)
    (action : FileAction α) (tree : FileTree) :
    (action.orFail wrap).run.run tree =
      match action.run.run tree with
      | (.ok value, after) => (.ok value, after)
      | (.error e, after) => (.error (wrap e), after) := by
  rw [FileAction.orFail, ExceptT.run_mk, StateT.run_bind]
  rcases action.run.run tree with ⟨⟨e⟩ | ⟨value⟩, after⟩
  · rfl
  · rfl

theorem writesTemplate_of_run_write {mid : FileTree}
    {result : Except InitError Unit} (hnot : tree.isPresent path = false)
    (hway : tree.MakesDirectoryFor path (.ok ()) mid)
    (hrun : ((FileAction.writeText path contractTemplate).orFail .write).run.run
      mid = (result, after)) :
    tree.WritesTemplate path result after := by
  rw [run_orFail] at hrun
  rcases hwrite : (FileAction.writeText path contractTemplate).run.run mid with
    ⟨⟨e⟩ | ⟨⟩, written⟩
  · rw [hwrite] at hrun
    cases hrun
    exact .fails mid _ e hnot hway (writesText_of_run hwrite)
  · rw [hwrite] at hrun
    cases hrun
    exact .writes mid _ hnot hway (writesText_of_run hwrite)

theorem writesTemplate_of_run {result : Except InitError Unit}
    (hrun : (writeTemplate path).run.run tree = (result, after)) :
    tree.WritesTemplate path result after := by
  rw [writeTemplate, run_bind, run_get] at hrun
  dsimp only at hrun
  cases hthere : tree.isPresent path with
  | true =>
      rw [if_pos hthere] at hrun
      cases hrun
      exact .refuses hthere
  | false =>
      rw [hthere, if_neg Bool.false_ne_true] at hrun
      cases hdirectory : directoryFor path with
      | none =>
          rw [hdirectory] at hrun
          exact writesTemplate_of_run_write hthere (.needless hdirectory) hrun
      | some directory =>
          have hneat :=
            Path.isNeat_of_parent? (parent?_of_directoryFor hdirectory)
          rw [hdirectory] at hrun
          dsimp only at hrun
          rw [run_bind, run_orFail, FileAction.makeDirectories] at hrun
          rcases hrunWay : (FileAction.makeDirectoriesFrom
              (directory.text.length + 1) directory).run.run tree with
            ⟨⟨e⟩ | ⟨⟩, mid⟩
          · have hway :=
              FileTree.MakesDirectoryFor.makes directory _ _ hdirectory
                (makesWay_of_run hneat hrunWay)
            rw [hrunWay] at hrun
            cases hrun
            exact .failsBefore _ e hthere hway
          · rw [hrunWay] at hrun
            exact writesTemplate_of_run_write hthere
              (.makes directory _ _ hdirectory (makesWay_of_run hneat hrunWay))
              hrun

theorem MakesDirectoryFor.growsToward
    (hway : tree.MakesDirectoryFor path result after) :
    tree.GrowsToward path after := by
  cases hway with
  | needless _ => exact .refl tree path
  | makes _ _ _ hsome hway =>
      exact hway.growsToward (parent?_of_directoryFor hsome)

theorem MakesDirectoryFor.eq_of_isDirectory
    (hway : tree.MakesDirectoryFor path result after)
    (hthere : ∀ directory, directoryFor path = some directory →
      tree.isDirectory directory = true) :
    after = tree := by
  cases hway with
  | needless _ => rfl
  | makes directory _ _ hsome hway =>
      exact hway.eq_of_isDirectory (hthere directory hsome)

/-- Making its directory does not let a path lead anywhere. -/
theorem MakesDirectoryFor.not_isPresent
    (hway : tree.MakesDirectoryFor path result after) (hmade : result = .ok ())
    (hnot : tree.isPresent path = false) (henclosed : tree.IsEnclosed)
    (hup : tree.StepsUpWithin path) : after.isPresent path = false := by
  cases hway with
  | needless _ => exact hnot
  | makes directory _ _ hsome hway =>
      have hparent := parent?_of_directoryFor hsome
      rcases hway.eq_or_leadsToNew hmade henclosed (hup.of_parent? hparent) with
        rfl | hnew
      · exact hnot
      · rw [← Bool.not_eq_true, isPresent_iff]
        rintro ⟨place, item, hfound⟩
        exact hnew.find_ne hway.keptIn hparent hup hfound

end Template

end FileTree

section Init

variable {tree after : FileTree} {path : Path} {outcome : CommandOutcome}

theorem exitCode_of_initError (e : InitError) : e.outcome.exitCode = 2 := by
  cases e <;> rfl

theorem runInit_of_isPresent (hthere : tree.isPresent path = true) :
    runInit tree path = ((InitError.present path).outcome, tree) := by
  have hrun : (writeTemplate path).run.run tree =
      (.error (.present path), tree) := by
    cases hway : (writeTemplate path).run.run tree with
    | mk result after =>
        cases FileTree.writesTemplate_of_run hway with
        | refuses _ => rfl
        | failsBefore _ _ hnot _ | fails _ _ _ hnot _ _ | writes _ _ hnot _ _ =>
            rw [hthere] at hnot
            cases hnot
  rw [runInit, hrun]

/-- What a run that writes the first contract leaves of the file tree.  A run
that succeeds wrote it where nothing could be found, and cannot be repeated; one
that fails added directories above the path at most, and none if the path or the
directory it needs was there.  It leaves a file too, with the front part of the
contract, only if the disk was full before the end of it.  Everything that stood
is kept, if the path steps up only out of directories that stood too. -/
theorem init_keeps_what_stands (hrun : runInit tree path = (outcome, after)) :
    (tree.IsEnclosed → tree.StepsUpWithin path → tree.KeptIn after) ∧
      (outcome.exitCode = 0 ∧ tree.isPresent path = false ∧
          (∀ room ∈ tree.room, contractTemplate.utf8ByteSize ≤ room) ∧
          after.readText path = .ok contractTemplate ∧
          (∃ mid place, tree.GrowsToward path mid ∧
            after.find true path =
              .ok (place, .file (some contractTemplate)) ∧
            ∀ other, other ≠ place → after.item? other = mid.item? other) ∧
          (∃ again, runInit after path = (again, after) ∧
            again.exitCode = 2) ∨
        outcome.exitCode = 2 ∧ tree.GrowsToward path after ∧
          (tree.isPresent path = true ∨
              (∀ directory, directoryFor path = some directory →
                tree.isDirectory directory = true) → after = tree) ∨
        outcome.exitCode = 2 ∧ tree.isPresent path = false ∧
          ∃ room, tree.room = some room ∧
            room < contractTemplate.utf8ByteSize ∧
            ∃ mid place content, tree.GrowsToward path mid ∧
              after.find true path = .ok (place, .file content) ∧
              (∀ front, content = some front ↔
                front.toList <+: contractTemplate.toList ∧
                  front.utf8ByteSize = room) ∧
              ∀ other, other ≠ place →
                after.item? other = mid.item? other) := by
  rw [runInit] at hrun
  rcases hway : (writeTemplate path).run.run tree with ⟨result, written⟩
  rw [hway] at hrun
  cases FileTree.writesTemplate_of_run hway with
  | refuses hthere =>
      cases hrun
      exact ⟨fun _ _ => .refl tree,
        Or.inr (Or.inl ⟨rfl, .refl tree path, fun _ => rfl⟩)⟩
  | failsBefore _ e hnot hmade =>
      cases hrun
      refine ⟨fun _ _ => hmade.growsToward.keptIn, Or.inr (Or.inl
        ⟨exitCode_of_initError _, hmade.growsToward, fun hthere => ?_⟩)⟩
      exact hmade.eq_of_isDirectory (hthere.resolve_left (by simp [hnot]))
  | fails mid _ e hnot hmade hwrites =>
      cases hrun
      cases hwrites with
      | fails _ =>
          refine ⟨fun _ _ => hmade.growsToward.keptIn, Or.inr (Or.inl
            ⟨exitCode_of_initError _, hmade.growsToward, fun hthere => ?_⟩)⟩
          exact hmade.eq_of_isDirectory (hthere.resolve_left (by simp [hnot]))
      | breaksOff room _ hroom hshort hwrites =>
          obtain ⟨place, hfound, hothers, hkept⟩ := hwrites.exists_place rfl
          rw [hmade.growsToward.room_eq] at hroom
          refine ⟨fun henclosed hup => ?_, Or.inr (Or.inr
            ⟨exitCode_of_initError _, hnot, room, hroom, hshort, mid, place, _,
              hmade.growsToward, hfound, fun _ => front?_eq_some_iff,
              hothers⟩)⟩
          exact hmade.growsToward.keptIn.trans
            (hkept (hmade.not_isPresent rfl hnot henclosed hup))
  | writes mid _ hnot hmade hwrites =>
      cases hrun
      cases hwrites with
      | finishes _ hroom hwrites =>
          obtain ⟨place, hfound, hothers, hkept⟩ := hwrites.exists_place rfl
          have hagain :=
            runInit_of_isPresent (FileTree.isPresent_iff.mpr ⟨place, _, hfound⟩)
          rw [hmade.growsToward.room_eq] at hroom
          refine ⟨fun henclosed hup => ?_,
            Or.inl ⟨rfl, hnot, hroom, ?_, ?_, _, hagain, rfl⟩⟩
          · exact hmade.growsToward.keptIn.trans
              (hkept (hmade.not_isPresent rfl hnot henclosed hup))
          · rw [FileTree.readText, hfound]
          · exact ⟨mid, place, hmade.growsToward, hfound, hothers⟩

end Init

namespace FirstContractWitness

/-- A working directory with a file, a directory, and a link to nothing. -/
def tree : FileTree where
  items := [(["work"], .directory),
    (["work", "notes.txt"], .file (some "kept")),
    (["work", "sites"], .directory),
    (["work", "latest"], .link "sites/Web.yaml")]
  current := ["work"]
  distinct := by decide

/-- The path steps up out of a directory that is there, and then down into two
that are not. -/
def path : Path := ⟨"sites/../contracts/admin/webcfg-guard.yaml"⟩

/-- The same on a disk with room for two lines of the contract. -/
def fullTree : FileTree := { tree with room := some 26 }

theorem front?_two_lines :
    26 < contractTemplate.utf8ByteSize ∧
      front? 26 contractTemplate = some "# webcfg-guard contract\n#\n" := by
  have htwo : "# webcfg-guard contract" ++ "\n" ++ ("#" ++ "\n") =
      "# webcfg-guard contract\n#\n" := by decide
  obtain ⟨rest, hlines⟩ : ∃ rest, contractTemplate =
      "# webcfg-guard contract\n#\n" ++
        ("# Built-in rules:" ++ "\n" ++ rest) := by
    rw [contractTemplate, templateLines, List.map_cons, List.map_cons,
      List.map_cons, String.join_cons, String.join_cons, String.join_cons,
      ← String.append_assoc, htwo]
    exact ⟨_, rfl⟩
  constructor
  · rw [hlines, String.utf8ByteSize_append, String.utf8ByteSize_append]
    exact Nat.lt_add_of_pos_right (Nat.add_pos_left (by decide) _)
  · rw [front?_eq_some_iff, hlines, String.toList_append]
    exact ⟨List.prefix_append _ _, by decide⟩

/-- The run finds the name free and writes what there is room for. -/
theorem run_on_fullTree :
    runInit fullTree ⟨"webcfg-guard.yaml"⟩ =
      ((InitError.write .diskFull).outcome,
        fullTree.put ["work", "webcfg-guard.yaml"]
          (.file (some "# webcfg-guard contract\n#\n"))) := by
  obtain ⟨hshort, hfront⟩ := front?_two_lines
  have hdirectory : directoryFor ⟨"webcfg-guard.yaml"⟩ = none := by
    decide +kernel
  have hrun : (writeTemplate ⟨"webcfg-guard.yaml"⟩).run.run fullTree =
      (.error (.write .diskFull), fullTree.put ["work", "webcfg-guard.yaml"]
        (.file (some "# webcfg-guard contract\n#\n"))) := by
    rw [writeTemplate, run_bind, run_get]
    dsimp only
    rw [if_neg (by decide +kernel), hdirectory]
    dsimp only
    rw [FileTree.run_orFail, FileTree.run_writeText_of_short rfl hshort, hfront]
    rfl
  rw [runInit, hrun]

theorem contract_is_written_once :
    tree.IsEnclosed ∧ tree.StepsUpWithin path ∧
      tree.KeptIn (runInit tree path).2 ∧
      (runInit tree path).1.exitCode = 0 ∧
      (runInit tree path).2.readText path = .ok contractTemplate ∧
      (∃ again, runInit (runInit tree path).2 path =
          (again, (runInit tree path).2) ∧ again.exitCode = 2) ∧
      ∃ outcome after, runInit fullTree ⟨"webcfg-guard.yaml"⟩ =
          (outcome, after) ∧
        fullTree.KeptIn after ∧ outcome.exitCode = 2 ∧
        after.readText ⟨"webcfg-guard.yaml"⟩ =
          .ok "# webcfg-guard contract\n#\n" := by
  have henclosed : tree.IsEnclosed := by decide
  have hup : tree.StepsUpWithin path := by decide +kernel
  have hcode : (runInit tree path).1.exitCode = 0 := by decide +kernel
  obtain ⟨hkeptFull, _⟩ := init_keeps_what_stands run_on_fullTree
  have hfullKept := hkeptFull henclosed (by decide +kernel)
  obtain ⟨hkept, ⟨_, _, _, hread, _, hagain⟩ | ⟨hfailed, _⟩ | ⟨hfailed, _⟩⟩ :=
    init_keeps_what_stands (Prod.eta (runInit tree path)).symm
  · exact ⟨henclosed, hup, hkept henclosed hup, hcode, hread, hagain, _, _,
      run_on_fullTree, hfullKept, exitCode_of_initError _, by decide +kernel⟩
  · rw [hcode] at hfailed
    cases hfailed
  · rw [hcode] at hfailed
    cases hfailed

/-- A path that ends with a slash is no path of a file, but this shows only when
the directories on the way are made. -/
theorem failed_run_leaves_directories :
    tree.IsEnclosed ∧ (runInit tree ⟨"contracts/site/"⟩).1.exitCode = 2 ∧
      tree.item? ["work", "contracts"] = none ∧
      (runInit tree ⟨"contracts/site/"⟩).2.item? ["work", "contracts"] =
        some .directory := by
  decide +kernel

-- A path that steps up out of a missing directory may lead to a file once that
-- directory is made.
example :
    ¬ tree.StepsUpWithin ⟨"new/../notes.txt"⟩ ∧
      tree.isPresent ⟨"new/../notes.txt"⟩ = false ∧
      (runInit tree ⟨"new/../notes.txt"⟩).2.item? ["work", "notes.txt"] ≠
        some (.file (some "kept")) := by
  decide +kernel

end FirstContractWitness

end WebConfigAudit
