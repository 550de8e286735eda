import Mathlib.Data.List.Nodup
import Mathlib.Data.List.Perm.Subperm
import WebConfigAudit.Proofs.PathsBelow
/-!
File trees without symbolic links.  In one of them a path leads where its pieces
lead one by one, and so the path that leads down by names leads to the item that
stands under these names.
-/

namespace WebConfigAudit

/-- The text of a path can be handed to the system at all. -/
structure Path.IsAllowed (path : Path) : Prop where
  no_nul : '\x00' ∉ path.text.toList
  ne_nil : path.text.toList ≠ []
  short : path.text.utf8ByteSize ≤ pathLimit

namespace FileTree

/-- The tree has no symbolic link, and its items have names and stand in
directories. -/
structure IsPlain (tree : FileTree) : Prop where
  named : ∀ entry ∈ tree.items, ∀ name ∈ entry.1, IsName name
  enclosed : ∀ entry ∈ tree.items, tree.item? entry.1.dropLast = some .directory
  no_link : ∀ entry ∈ tree.items, ∀ target, entry.2 ≠ .link target

section Items

variable {tree : FileTree} {place : Location} {item : Item} {name : String}

theorem item?_root (tree : FileTree) : tree.item? [] = some .directory := rfl

theorem mem_of_item? (hplace : place ≠ [])
    (hitem : tree.item? place = some item) : (place, item) ∈ tree.items := by
  rw [item?, if_neg (by simpa using hplace), Option.map_eq_some_iff] at hitem
  obtain ⟨entry, hentry, rfl⟩ := hitem
  have hfound : entry.1 = place := by simpa using List.find?_some hentry
  rw [← hfound]
  exact List.mem_of_find?_eq_some hentry

theorem item?_of_mem (hplace : place ≠ []) (hmem : (place, item) ∈ tree.items) :
    tree.item? place = some item := by
  have hsome : (tree.items.find? fun entry => entry.1 == place).isSome := by
    rw [List.find?_isSome]
    exact ⟨_, hmem, beq_self_eq_true place⟩
  obtain ⟨entry, hentry⟩ := Option.isSome_iff_exists.mp hsome
  have hfound : entry.1 = place := by simpa using List.find?_some hentry
  have hsame : entry = (place, item) :=
    List.inj_on_of_nodup_map tree.distinct (List.mem_of_find?_eq_some hentry)
      hmem hfound
  rw [item?, if_neg (by simpa using hplace), hentry, hsame]
  rfl

/-- The items of two trees stand at the same places when they are the same up to
their order. -/
theorem item?_eq_of_perm {other : FileTree}
    (hperm : other.items.Perm tree.items) (place : Location) :
    other.item? place = tree.item? place := by
  by_cases hplace : place = []
  · rw [hplace, item?_root, item?_root]
  · ext item
    constructor
    · exact fun hitem =>
        item?_of_mem hplace (hperm.mem_iff.mp (mem_of_item? hplace hitem))
    · exact fun hitem =>
        item?_of_mem hplace (hperm.mem_iff.mpr (mem_of_item? hplace hitem))

/-- What directories list is what stands in them. -/
theorem mem_namesAt :
    name ∈ tree.namesAt place ↔
      ∃ item, tree.item? (place ++ [name]) = some item := by
  have hplace : place ++ [name] ≠ [] :=
    List.append_ne_nil_of_right_ne_nil _ (List.cons_ne_nil _ _)
  rw [namesAt, List.mem_filterMap]
  constructor
  · rintro ⟨⟨inside, item⟩, hmem, hname⟩
    rw [Option.ite_none_right_eq_some] at hname
    obtain ⟨hstands, hlast⟩ := hname
    simp only [Bool.and_eq_true, beq_iff_eq] at hstands
    have hinside : inside = place ++ [name] := by
      rw [← hstands.2]
      exact (List.dropLast_append_getLast? name hlast).symm
    rw [hinside] at hmem
    exact ⟨item, item?_of_mem hplace hmem⟩
  · rintro ⟨item, hitem⟩
    exact ⟨_, mem_of_item? hplace hitem, by simp⟩

/-- A directory lists a name once. -/
theorem nodup_namesAt (tree : FileTree) (place : Location) :
    (tree.namesAt place).Nodup := by
  have hplaces :
      tree.namesAt place = (tree.items.map Prod.fst).filterMap fun inside =>
        if !inside.isEmpty && inside.dropLast == place then inside.getLast?
        else none := by
    rw [namesAt, List.filterMap_map]
    rfl
  rw [hplaces]
  refine tree.distinct.filterMap fun inside inside' name hname hname' => ?_
  rw [Option.mem_def, Option.ite_none_right_eq_some] at hname hname'
  simp only [Bool.and_eq_true, beq_iff_eq] at hname hname'
  rw [← List.dropLast_append_getLast? name hname.2,
    ← List.dropLast_append_getLast? name hname'.2, hname.1.2, hname'.1.2]

/-- The items of the tree have names. -/
def HasNames (tree : FileTree) : Prop :=
  ∀ entry ∈ tree.items, ∀ name ∈ entry.1, IsName name

theorem HasNames.isName (hnames : tree.HasNames)
    (hitem : tree.item? place = some item) : ∀ name ∈ place, IsName name := by
  by_cases hplace : place = []
  · rw [hplace]
    exact List.forall_mem_nil _
  · exact hnames _ (mem_of_item? hplace hitem)

theorem HasNames.isName_of_mem_namesAt (hnames : tree.HasNames)
    (hname : name ∈ tree.namesAt place) : IsName name := by
  obtain ⟨item, hitem⟩ := mem_namesAt.mp hname
  exact hnames.isName hitem name (List.mem_append_right _ List.mem_cons_self)

/-- The items of the tree stand in directories. -/
def IsEnclosed (tree : FileTree) : Prop :=
  ∀ entry ∈ tree.items, tree.item? entry.1.dropLast = some .directory

instance (tree : FileTree) : Decidable tree.IsEnclosed :=
  inferInstanceAs (Decidable
    (∀ entry ∈ tree.items, tree.item? entry.1.dropLast = some .directory))

theorem IsEnclosed.directory_above (henclosed : tree.IsEnclosed)
    (hitem : tree.item? (place ++ [name]) = some item) :
    tree.item? place = some .directory := by
  have hplace : place ++ [name] ≠ [] :=
    List.append_ne_nil_of_right_ne_nil _ (List.cons_ne_nil _ _)
  have habove := henclosed _ (mem_of_item? hplace hitem)
  rwa [List.dropLast_concat] at habove

end Items

section Plain

variable {tree : FileTree} {place : Location} {item : Item} {name : String}

theorem IsPlain.hasNames (hplain : tree.IsPlain) : tree.HasNames :=
  hplain.named

theorem IsPlain.isName (hplain : tree.IsPlain)
    (hitem : tree.item? place = some item) : ∀ name ∈ place, IsName name :=
  hplain.hasNames.isName hitem

theorem IsPlain.item?_ne_link (hplain : tree.IsPlain) (target : String) :
    tree.item? place ≠ some (.link target) := by
  intro hitem
  by_cases hplace : place = []
  · rw [hplace, item?_root] at hitem
    cases hitem
  · exact hplain.no_link _ (mem_of_item? hplace hitem) target rfl

theorem IsPlain.isEnclosed (hplain : tree.IsPlain) : tree.IsEnclosed :=
  hplain.enclosed

theorem IsPlain.directory_above (hplain : tree.IsPlain)
    (hitem : tree.item? (place ++ [name]) = some item) :
    tree.item? place = some .directory :=
  hplain.isEnclosed.directory_above hitem

/-- Everything on the way down to an item is a directory. -/
theorem IsPlain.directory_on_the_way (hplain : tree.IsPlain)
    {names : List String} (hsome : names ≠ [])
    (hitem : tree.item? (place ++ names) = some item) :
    tree.item? place = some .directory := by
  induction names generalizing place with
  | nil => contradiction
  | cons name names ih =>
      by_cases hlast : names = []
      · subst hlast
        exact hplain.directory_above hitem
      · rw [List.append_cons] at hitem
        exact hplain.directory_above (ih hlast hitem)

theorem IsPlain.isName_of_mem_namesAt (hplain : tree.IsPlain)
    (hname : name ∈ tree.namesAt place) : IsName name :=
  hplain.hasNames.isName_of_mem_namesAt hname

/-- An item stands no deeper than there are items. -/
theorem IsPlain.length_le (hplain : tree.IsPlain)
    (hitem : tree.item? place = some item) :
    place.length ≤ tree.items.length := by
  -- The places on the way to it are all different.
  let ways := (List.range place.length).map fun k => place.take (k + 1)
  have hdistinct : ways.Nodup := by
    refine List.Nodup.map_on ?_ List.nodup_range
    intro k hk l hl hsame
    have hlength := congrArg List.length hsame
    rw [List.mem_range] at hk hl
    rw [List.length_take, List.length_take] at hlength
    omega
  have hitems : ways ⊆ tree.items.map Prod.fst := by
    intro way hway
    obtain ⟨k, hk, rfl⟩ := List.mem_map.mp hway
    rw [List.mem_range] at hk
    have hsome : place.take (k + 1) ≠ [] := by
      rw [List.ne_nil_iff_length_pos, List.length_take]
      omega
    have hthere : ∃ item, tree.item? (place.take (k + 1)) = some item := by
      rw [← List.take_append_drop (k + 1) place] at hitem
      by_cases hend : place.drop (k + 1) = []
      · rw [hend, List.append_nil] at hitem
        exact ⟨item, hitem⟩
      · exact ⟨.directory, hplain.directory_on_the_way hend hitem⟩
    obtain ⟨item, hitem⟩ := hthere
    exact List.mem_map_of_mem (mem_of_item? hsome hitem)
  have hlength := (List.subperm_of_subset hdistinct hitems).length_le
  rwa [List.length_map, List.length_map, List.length_range] at hlength

end Plain

section Steps

variable {tree : FileTree} {place inside : Location} {item : Item}
  {name : String} {p : Path} {pieces rest : List (List Char)}

/-- Where a piece leads from a place, if it leads anywhere. -/
def step? (tree : FileTree) (place : Location) (piece : List Char) :
    Option Location :=
  if tree.item? place ≠ some .directory then none
  else if Path.isIdle piece then some place
  else if piece = ['.', '.'] then some place.dropLast
  else if (String.ofList piece).utf8ByteSize > nameLimit then none
  else (tree.item? (place ++ [String.ofList piece])).map fun _ =>
    place ++ [String.ofList piece]

/-- Without links, a path leads where its pieces lead one by one. -/
theorem IsPlain.walkPieces_eq_found_iff (hplain : tree.IsPlain) (follow : Bool)
    (through : Location → Path → List (List Char) →
      Except FileError Destination) :
    tree.walkPieces follow through place pieces = .ok (.found inside item) ↔
      pieces.foldlM tree.step? place = some inside ∧
      tree.item? inside = some item := by
  induction pieces generalizing place with
  | nil =>
      rw [walkPieces, List.foldlM_nil]
      cases hitem : tree.item? place with
      | none =>
          simp only [reduceCtorEq, false_iff, not_and]
          rintro ⟨⟩
          simp [hitem]
      | some there =>
          simp only [Except.ok.injEq, Destination.found.injEq]
          constructor
          · rintro ⟨rfl, rfl⟩
            exact ⟨rfl, hitem⟩
          · rintro ⟨⟨⟩, hinside⟩
            exact ⟨rfl, Option.some.inj (hitem.symm.trans hinside)⟩
  | cons piece rest ih =>
      rw [walkPieces, List.foldlM_cons, step?]
      by_cases hdirectory : tree.item? place ≠ some .directory
      · rw [if_pos hdirectory, if_pos hdirectory]
        simp
      · rw [if_neg hdirectory, if_neg hdirectory]
        by_cases hidle : Path.isIdle piece = true
        · rw [if_pos hidle, if_pos hidle]
          exact ih
        · rw [if_neg hidle, if_neg hidle]
          by_cases hup : piece = ['.', '.']
          · rw [if_pos hup, if_pos hup]
            exact ih
          · rw [if_neg hup, if_neg hup]
            by_cases hlong : (String.ofList piece).utf8ByteSize > nameLimit
            · rw [if_pos hlong, if_pos hlong]
              simp
            · rw [if_neg hlong, if_neg hlong]
              cases hitem : tree.item? (place ++ [String.ofList piece]) with
              | none =>
                  dsimp only
                  split <;> simp
              | some there =>
                  cases there with
                  | link target =>
                      exact absurd hitem (hplain.item?_ne_link target)
                  | file content => exact ih
                  | directory => exact ih

/-- Where a path starts. -/
def start (tree : FileTree) (p : Path) : Location :=
  if p.isAbsolute then [] else tree.current

theorem resolve_eq_ok_iff {follow : Bool} {destination : Destination} :
    tree.resolve follow p = .ok destination ↔
      p.IsAllowed ∧ tree.walk follow linkLimit (tree.start p) p.pieces =
        .ok destination := by
  rw [resolve]
  by_cases hnul : p.text.toList.contains '\x00' = true
  · rw [if_pos hnul]
    refine iff_of_false nofun fun hallowed => hallowed.1.no_nul ?_
    simpa using hnul
  · rw [if_neg hnul]
    by_cases hempty : p.text.isEmpty = true
    · rw [if_pos hempty]
      refine iff_of_false nofun fun hallowed => hallowed.1.ne_nil ?_
      simpa using hempty
    · rw [if_neg hempty]
      by_cases hlong : p.text.utf8ByteSize > pathLimit
      · rw [if_pos hlong]
        exact iff_of_false nofun fun hallowed =>
          absurd hallowed.1.short (Nat.not_le.mpr hlong)
      · rw [if_neg hlong]
        exact (and_iff_right
          ⟨by simpa using hnul, by simpa using hempty,
            Nat.not_lt.mp hlong⟩).symm

theorem find_eq_ok_iff_resolve {follow : Bool} :
    tree.find follow p = .ok (place, item) ↔
      tree.resolve follow p = .ok (.found place item) := by
  rw [find]
  cases tree.resolve follow p with
  | error e => simp
  | ok destination => cases destination <;> simp

theorem isAllowed_of_find {follow : Bool}
    (hfound : tree.find follow p = .ok (place, item)) : p.IsAllowed :=
  (resolve_eq_ok_iff.mp (find_eq_ok_iff_resolve.mp hfound)).1

/-- Without links, a path leads to an item when its text is allowed and its
pieces lead there. -/
theorem IsPlain.find_eq_ok_iff (hplain : tree.IsPlain) {follow : Bool} :
    tree.find follow p = .ok (place, item) ↔
      p.IsAllowed ∧ p.pieces.foldlM tree.step? (tree.start p) = some place ∧
        tree.item? place = some item := by
  rw [find_eq_ok_iff_resolve, resolve_eq_ok_iff, linkLimit, walk,
    hplain.walkPieces_eq_found_iff follow]

section Leading

theorem step?_name (hdirectory : tree.item? place = some .directory)
    (hname : IsName name) :
    tree.step? place name.toList =
      (tree.item? (place ++ [name])).map fun _ => place ++ [name] := by
  rw [step?, if_neg (not_not.mpr hdirectory), hname.not_isIdle,
    if_neg Bool.false_ne_true, if_neg hname.ne_dots, String.ofList_toList,
    if_neg (Nat.not_lt.mpr hname.short)]

theorem foldlM_idle (hdirectory : tree.item? place = some .directory)
    {idles : List (List Char)}
    (hidles : ∀ piece ∈ idles, Path.isIdle piece = true) :
    idles.foldlM tree.step? place = some place := by
  induction idles with
  | nil => rfl
  | cons piece idles ih =>
      rw [List.forall_mem_cons] at hidles
      rw [List.foldlM_cons, step?, if_neg (not_not.mpr hdirectory),
        if_pos hidles.1]
      exact ih hidles.2

theorem eq_of_foldlM_idle {idles : List (List Char)}
    (hidles : ∀ piece ∈ idles, Path.isIdle piece = true)
    (hlead : idles.foldlM tree.step? place = some inside) : inside = place := by
  induction idles with
  | nil => exact (Option.some.inj hlead).symm
  | cons piece idles ih =>
      rw [List.forall_mem_cons] at hidles
      rw [List.foldlM_cons, step?] at hlead
      split at hlead
      · contradiction
      · rw [if_pos hidles.1] at hlead
        exact ih hidles.2 hlead

/-- Pieces that make no step can be left out at the end. -/
theorem foldlM_of_append_idle {idles : List (List Char)}
    (hidles : ∀ piece ∈ idles, Path.isIdle piece = true)
    (hlead : (pieces ++ idles).foldlM tree.step? place = some inside) :
    pieces.foldlM tree.step? place = some inside := by
  rw [List.foldlM_append, Option.bind_eq_bind, Option.bind_eq_some_iff] at hlead
  obtain ⟨there, hthere, hidle⟩ := hlead
  rw [hthere, eq_of_foldlM_idle hidles hidle]

theorem foldlM_withoutLastEmpty
    (hlead : pieces.foldlM tree.step? place = some inside) :
    (Path.withoutLastEmpty pieces).foldlM tree.step? place = some inside := by
  rcases Path.withoutLastEmpty_eq_or pieces with heq | heq
  · rwa [← heq]
  · rw [heq] at hlead
    exact foldlM_of_append_idle (by simp [Path.isIdle]) hlead

theorem foldlM_dropIdleEnd
    (hlead : pieces.foldlM tree.step? place = some inside) :
    (Path.dropIdleEnd pieces).foldlM tree.step? place = some inside := by
  obtain ⟨idles, hidles, heq⟩ := Path.exists_dropIdleEnd_append pieces
  rw [heq] at hlead
  exact foldlM_of_append_idle hidles hlead

/-- A path continued by a name leads to what the directory it leads to holds
under the name. -/
theorem IsPlain.find_join_iff (hplain : tree.IsPlain)
    (hfound : tree.find true p = .ok (place, .directory))
    (hname : IsName name) :
    tree.find true (p.join name) = .ok (inside, item) ↔
      (p.join name).text.utf8ByteSize ≤ pathLimit ∧ inside = place ++ [name] ∧
        tree.item? inside = some item := by
  obtain ⟨hallowed, hlead, hdirectory⟩ := hplain.find_eq_ok_iff.mp hfound
  have hsteps :
      (p.join name).pieces.foldlM tree.step? (tree.start (p.join name)) =
        (tree.item? (place ++ [name])).map fun _ => place ++ [name] := by
    rw [Path.pieces_join hallowed.ne_nil hname, start,
      Path.isAbsolute_join hallowed.ne_nil hname, ← start, List.foldlM_append,
      foldlM_withoutLastEmpty hlead, Option.bind_eq_bind, Option.bind_some,
      List.foldlM_cons, step?_name hdirectory hname]
    simp
  have hnul : '\x00' ∉ (p.join name).text.toList := by
    rw [Path.toList_join hname.head?_ne, Path.separatorAfter]
    have := hallowed.no_nul
    have := hname.no_nul
    split <;> simp_all
  rw [hplain.find_eq_ok_iff, hsteps, Option.map_eq_some_iff]
  constructor
  · rintro ⟨hjoin, ⟨there, _, rfl⟩, hitem⟩
    exact ⟨hjoin.short, rfl, hitem⟩
  · rintro ⟨hshort, rfl, hitem⟩
    exact ⟨⟨hnul, Path.toList_join_ne_nil hname p, hshort⟩,
      ⟨item, hitem, rfl⟩, hitem⟩

/-- A path leads to the same without what makes no step at its end. -/
theorem IsPlain.find_bare (hplain : tree.IsPlain)
    (hfound : tree.find true p = .ok (place, item)) :
    tree.find true p.bare = .ok (place, item) := by
  obtain ⟨hallowed, hlead, hitem⟩ := hplain.find_eq_ok_iff.mp hfound
  obtain ⟨front, body, hp⟩ := p.exists_isWritten
  have hbare := hp.bare hallowed.ne_nil
  have htext := Path.prefix_toList_bare p
  refine hplain.find_eq_ok_iff.mpr ⟨⟨?_, Path.bare_ne_nil hallowed.ne_nil, ?_⟩,
    ?_, hitem⟩
  · exact fun hnul => hallowed.no_nul (htext.subset hnul)
  · exact (utf8ByteSize_le_of_starts htext).trans hallowed.short
  · rw [hp.pieces_eq, start, hp.isAbsolute_eq, List.foldlM_append,
      Option.bind_eq_bind, Option.bind_eq_some_iff] at hlead
    obtain ⟨there, hthere, hbody⟩ := hlead
    rw [hbare.pieces_eq, start, hbare.isAbsolute_eq, List.foldlM_append, hthere,
      Option.bind_eq_bind, Option.bind_some]
    split
    · next hroot =>
        obtain ⟨rfl, hidle⟩ := hroot
        cases hthere
        have hkept := foldlM_dropIdleEnd hbody
        rw [hidle] at hkept
        cases hkept
        rfl
    · exact foldlM_dropIdleEnd hbody

/-- The path that leads down by names leads to the item that stands under
them. -/
theorem IsPlain.find_below (hplain : tree.IsPlain) {names : List String}
    (hfound : tree.find true p = .ok (place, .directory))
    (hitem : tree.item? (place ++ names) = some item)
    (hshort : (p.below names).text.utf8ByteSize ≤ pathLimit) :
    tree.find true (p.below names) = .ok (place ++ names, item) := by
  induction names generalizing p place with
  | nil =>
      rw [List.append_nil] at hitem ⊢
      cases (hplain.find_eq_ok_iff.mp hfound).2.2.symm.trans hitem
      exact hfound
  | cons name names ih =>
      have hnames := hplain.isName hitem
      rw [List.append_cons] at hitem ⊢
      have hbelow : ∀ name ∈ names, IsName name := fun name hname =>
        hnames name (List.mem_append_right _ (List.mem_cons_of_mem _ hname))
      have hname : IsName name :=
        hnames name (List.mem_append_right _ List.mem_cons_self)
      have hjoin : (p.join name).text.utf8ByteSize ≤ pathLimit :=
        (utf8ByteSize_le_of_starts (Path.toList_prefix_below hbelow _)).trans
          hshort
      by_cases hlast : names = []
      · subst hlast
        rw [List.append_nil] at hitem ⊢
        exact (hplain.find_join_iff hfound hname).mpr ⟨hjoin, rfl, hitem⟩
      · refine ih ((hplain.find_join_iff hfound hname).mpr ⟨hjoin, rfl, ?_⟩)
          hitem hshort
        exact hplain.directory_on_the_way hlast hitem

end Leading

end Steps

section Questions

variable {tree : FileTree} {place : Location} {p : Path}

theorem isFile_iff :
    tree.isFile p = true ↔
      ∃ place content, tree.find true p = .ok (place, .file content) := by
  rw [isFile]
  split
  · next place content hfound => exact iff_of_true rfl ⟨place, content, hfound⟩
  · next hother =>
      exact iff_of_false Bool.false_ne_true fun ⟨place, content, hfound⟩ =>
        hother place content hfound

theorem isDirectory_iff :
    tree.isDirectory p = true ↔
      ∃ place, tree.find true p = .ok (place, .directory) := by
  rw [isDirectory]
  split
  · next place hfound => exact iff_of_true rfl ⟨place, hfound⟩
  · next hother =>
      exact iff_of_false Bool.false_ne_true fun ⟨place, hfound⟩ =>
        hother place hfound

theorem isPresent_iff :
    tree.isPresent p = true ↔
      ∃ place item, tree.find true p = .ok (place, item) := by
  rw [isPresent]
  split
  · next found hfound => exact iff_of_true rfl ⟨found.1, found.2, hfound⟩
  · next e hfailed =>
      refine iff_of_false Bool.false_ne_true ?_
      rintro ⟨place, item, hfound⟩
      rw [hfailed] at hfound
      cases hfound

theorem list_eq_ok_iff {paths : List Path} :
    tree.list p = .ok paths ↔
      ∃ place, tree.find true p = .ok (place, .directory) ∧
        paths = (tree.namesAt place).map p.join := by
  rw [list]
  split
  · next place hfound => simp [hfound, eq_comm]
  · next found hother hfound =>
      rw [hfound]
      refine iff_of_false nofun ?_
      rintro ⟨place, ⟨⟩, hpaths⟩
      exact hother place rfl
  · next e hfailed => simp [hfailed]

end Questions

section Order

variable {tree other : FileTree}

/-- Two trees have the same items, though their directories may list them in
another order. -/
structure SameItems (tree other : FileTree) : Prop where
  perm : other.items.Perm tree.items
  current : other.current = tree.current

theorem SameItems.item?_eq (hsame : tree.SameItems other) (place : Location) :
    other.item? place = tree.item? place :=
  item?_eq_of_perm hsame.perm place

theorem SameItems.namesAt_perm (hsame : tree.SameItems other)
    (place : Location) : (other.namesAt place).Perm (tree.namesAt place) :=
  hsame.perm.filterMap _

theorem SameItems.isPlain (hsame : tree.SameItems other)
    (hplain : tree.IsPlain) : other.IsPlain where
  named entry hentry := hplain.named entry (hsame.perm.mem_iff.mp hentry)
  enclosed entry hentry := by
    rw [hsame.item?_eq]
    exact hplain.enclosed entry (hsame.perm.mem_iff.mp hentry)
  no_link entry hentry := hplain.no_link entry (hsame.perm.mem_iff.mp hentry)

theorem SameItems.walkPieces_eq (hsame : tree.SameItems other) {follow : Bool}
    {through : Location → Path → List (List Char) →
      Except FileError Destination}
    (pieces : List (List Char)) (place : Location) :
    other.walkPieces follow through place pieces =
      tree.walkPieces follow through place pieces := by
  induction pieces generalizing place with
  | nil => rw [walkPieces, walkPieces, hsame.item?_eq]
  | cons piece rest ih =>
      rw [walkPieces, walkPieces, hsame.item?_eq, hsame.item?_eq, ih, ih, ih]

theorem SameItems.walk_eq (hsame : tree.SameItems other) {follow : Bool}
    (links : Nat) : other.walk follow links = tree.walk follow links := by
  induction links with
  | zero =>
      funext place pieces
      exact hsame.walkPieces_eq pieces place
  | succ links ih =>
      funext place pieces
      rw [walk, walk, ih, hsame.walkPieces_eq]

/-- What a path leads to does not depend on the order of listing. -/
theorem SameItems.find_eq (hsame : tree.SameItems other) (follow : Bool)
    (p : Path) : other.find follow p = tree.find follow p := by
  rw [find, find, resolve, resolve, hsame.walk_eq, hsame.current]

end Order

end FileTree

end WebConfigAudit
