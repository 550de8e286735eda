import WebConfigAudit.Proofs.GrownTree
import WebConfigAudit.Proofs.PathResolution
/-!
Where a path leads, piece by piece.  A walk that succeeds is told by the places
that it comes through, and so it leads to the same destination in every tree
that agrees at these places.
-/

namespace WebConfigAudit

/-- The piece steps down to an item of its name. -/
structure Path.IsStepDown (piece : List Char) : Prop where
  not_idle : Path.isIdle piece = false
  not_up : piece ≠ ['.', '.']
  short : (String.ofList piece).utf8ByteSize ≤ nameLimit

/-- Before its first step, a way with the same steps stays where it starts. -/
theorem Path.exists_idles_before {piece : List Char}
    {rest others : List (List Char)} (hpiece : Path.isIdle piece = false)
    (hsame : others.filter (fun piece => !Path.isIdle piece) =
      (piece :: rest).filter fun piece => !Path.isIdle piece) :
    ∃ idles more, others = idles ++ piece :: more ∧
      (∀ piece ∈ idles, Path.isIdle piece = true) ∧
      more.filter (fun piece => !Path.isIdle piece) =
        rest.filter fun piece => !Path.isIdle piece := by
  rw [List.filter_cons_of_pos (by simp [hpiece]), List.filter_eq_cons_iff]
    at hsame
  obtain ⟨idles, more, hothers, hidles, _, hmore⟩ := hsame
  exact ⟨idles, more, hothers, by simpa using hidles, hmore⟩

namespace FileTree

/-- The pieces lead from a place to a destination, through at most so many
links. -/
inductive Leads (tree : FileTree) (follow : Bool) :
    Nat → Location → List (List Char) → Destination → Prop
  | ends (links : Nat) (place : Location) (item : Item)
        (hitem : tree.item? place = some item) :
      Leads tree follow links place [] (.found place item)
  | idle (links : Nat) (place : Location) (piece : List Char)
      (rest : List (List Char)) (destination : Destination)
      (hdirectory : tree.item? place = some .directory)
      (hidle : Path.isIdle piece = true)
      (hrest : Leads tree follow links place rest destination) :
      Leads tree follow links place (piece :: rest) destination
  | up (links : Nat) (place : Location) (rest : List (List Char))
      (destination : Destination)
      (hdirectory : tree.item? place = some .directory)
      (hrest : Leads tree follow links place.dropLast rest destination) :
      Leads tree follow links place (['.', '.'] :: rest) destination
  | free (links : Nat) (place : Location) (piece : List Char)
      (rest : List (List Char))
      (hdirectory : tree.item? place = some .directory)
      (hstep : Path.IsStepDown piece)
      (hnone : tree.item? (place ++ [String.ofList piece]) = none)
      (hslashes : rest.all List.isEmpty = true) :
      Leads tree follow links place (piece :: rest)
        (.free place (String.ofList piece) (!rest.isEmpty))
  | down (links : Nat) (place : Location) (piece : List Char)
      (rest : List (List Char)) (item : Item) (destination : Destination)
      (hdirectory : tree.item? place = some .directory)
      (hstep : Path.IsStepDown piece)
      (hitem : tree.item? (place ++ [String.ofList piece]) = some item)
      (hnot : ∀ target, item ≠ .link target)
      (hrest : Leads tree follow links (place ++ [String.ofList piece]) rest
        destination) :
      Leads tree follow links place (piece :: rest) destination
  | stop (links : Nat) (place : Location) (piece : List Char) (target : String)
      (hdirectory : tree.item? place = some .directory)
      (hstep : Path.IsStepDown piece)
      (hitem : tree.item? (place ++ [String.ofList piece]) =
        some (.link target)) (hfollow : follow = false) :
      Leads tree follow links place [piece]
        (.found (place ++ [String.ofList piece]) (.link target))
  | through (links : Nat) (place : Location) (piece : List Char)
      (rest : List (List Char)) (target : String) (destination : Destination)
      (hdirectory : tree.item? place = some .directory)
      (hstep : Path.IsStepDown piece)
      (hitem : tree.item? (place ++ [String.ofList piece]) =
        some (.link target)) (hfollow : rest ≠ [] ∨ follow = true)
      (hrest : Leads tree follow links
        (if Path.isAbsolute ⟨target⟩ then [] else place)
        (Path.pieces ⟨target⟩ ++ rest) destination) :
      Leads tree follow (links + 1) place (piece :: rest) destination

section Walk

variable {tree : FileTree} {follow : Bool} {links : Nat} {place : Location}
  {pieces : List (List Char)} {destination : Destination}

/-- What happens at a link when so many may still be passed. -/
def walkThrough (tree : FileTree) (follow : Bool) :
    Nat → Location → Path → List (List Char) → Except FileError Destination
  | 0, _, _, _ => .error .tooManyLinks
  | links + 1, place, target, rest =>
      tree.walk follow links (if target.isAbsolute then [] else place)
        (target.pieces ++ rest)

theorem walk_eq_walkPieces (tree : FileTree) (follow : Bool) (links : Nat) :
    tree.walk follow links =
      tree.walkPieces follow (tree.walkThrough follow links) := by
  cases links with
  | zero => rfl
  | succ links => rfl

theorem leads_of_walk
    (hwalk : tree.walk follow links place pieces = .ok destination) :
    tree.Leads follow links place pieces destination := by
  induction links using Nat.strong_induction_on generalizing place pieces with
  | _ links ihLinks =>
      induction pieces generalizing place with
      | nil =>
          rw [walk_eq_walkPieces, walkPieces] at hwalk
          cases hitem : tree.item? place with
          | none =>
              rw [hitem] at hwalk
              cases hwalk
          | some item =>
              rw [hitem] at hwalk
              cases hwalk
              exact .ends links place item hitem
      | cons piece rest ih =>
          rw [walk_eq_walkPieces, walkPieces, ← walk_eq_walkPieces] at hwalk
          by_cases hdirectory : tree.item? place ≠ some .directory
          · rw [if_pos hdirectory] at hwalk
            cases hwalk
          rw [if_neg hdirectory] at hwalk
          rw [not_not] at hdirectory
          by_cases hidle : Path.isIdle piece = true
          · rw [if_pos hidle] at hwalk
            exact .idle _ _ _ _ _ hdirectory hidle (ih hwalk)
          rw [if_neg hidle] at hwalk
          rw [Bool.not_eq_true] at hidle
          by_cases hup : piece = ['.', '.']
          · subst hup
            exact .up _ _ _ _ hdirectory (ih hwalk)
          rw [if_neg hup] at hwalk
          by_cases hlong : (String.ofList piece).utf8ByteSize > nameLimit
          · rw [if_pos hlong] at hwalk
            cases hwalk
          rw [if_neg hlong] at hwalk
          have hstep : Path.IsStepDown piece :=
            ⟨hidle, hup, Nat.not_lt.mp hlong⟩
          -- What is left depends on what stands under the name.
          cases hitem : tree.item? (place ++ [String.ofList piece]) with
          | none =>
              rw [hitem] at hwalk
              dsimp only at hwalk
              split at hwalk
              · next hslashes =>
                  cases hwalk
                  exact .free _ _ _ _ hdirectory hstep hitem hslashes
              · cases hwalk
          | some item =>
              rw [hitem] at hwalk
              cases item with
              | file content =>
                  exact .down _ _ _ _ _ _ hdirectory hstep hitem (by simp)
                    (ih hwalk)
              | directory =>
                  exact .down _ _ _ _ _ _ hdirectory hstep hitem (by simp)
                    (ih hwalk)
              | link target =>
                  dsimp only at hwalk
                  split at hwalk
                  · next hstop =>
                      rw [Bool.and_eq_true, List.isEmpty_iff, Bool.not_eq_true']
                        at hstop
                      obtain ⟨rfl, hfollow⟩ := hstop
                      cases hwalk
                      exact .stop _ _ _ _ hdirectory hstep hitem hfollow
                  · next hgoes =>
                      have hfollow : rest ≠ [] ∨ follow = true := by
                        by_contra hboth
                        rw [not_or, not_not, Bool.not_eq_true] at hboth
                        simp [hboth] at hgoes
                      cases links with
                      | zero => cases hwalk
                      | succ links =>
                          exact .through _ _ _ _ _ _ hdirectory hstep
                            hitem hfollow
                            (ihLinks links (Nat.lt_succ_self links) hwalk)

theorem walk_eq_ok_iff :
    tree.walk follow links place pieces = .ok destination ↔
      tree.Leads follow links place pieces destination := by
  refine ⟨leads_of_walk, fun hleads => ?_⟩
  induction hleads with
  | ends links place item hitem => rw [walk_eq_walkPieces, walkPieces, hitem]
  | idle links place piece rest destination hdirectory hidle _ ih =>
      rwa [walk_eq_walkPieces, walkPieces, ← walk_eq_walkPieces,
        if_neg (not_not.mpr hdirectory), if_pos hidle]
  | up links place rest destination hdirectory _ ih =>
      rwa [walk_eq_walkPieces, walkPieces, ← walk_eq_walkPieces,
        if_neg (not_not.mpr hdirectory), if_neg (by decide), if_pos rfl]
  | free links place piece rest hdirectory hstep hnone hslashes =>
      rw [walk_eq_walkPieces, walkPieces, if_neg (not_not.mpr hdirectory),
        hstep.not_idle, if_neg Bool.false_ne_true, if_neg hstep.not_up,
        if_neg (Nat.not_lt.mpr hstep.short), hnone]
      exact if_pos hslashes
  | down links place piece rest item destination hdirectory hstep hitem
      hnot _ ih =>
      rw [walk_eq_walkPieces, walkPieces, ← walk_eq_walkPieces,
        if_neg (not_not.mpr hdirectory), hstep.not_idle,
        if_neg Bool.false_ne_true, if_neg hstep.not_up,
        if_neg (Nat.not_lt.mpr hstep.short), hitem]
      cases item with
      | file content => exact ih
      | directory => exact ih
      | link target => exact absurd rfl (hnot target)
  | stop links place piece target hdirectory hstep hitem hfollow =>
      rw [walk_eq_walkPieces, walkPieces, if_neg (not_not.mpr hdirectory),
        hstep.not_idle, if_neg Bool.false_ne_true, if_neg hstep.not_up,
        if_neg (Nat.not_lt.mpr hstep.short), hitem]
      exact if_pos (by simp [hfollow])
  | through links place piece rest target destination hdirectory hstep hitem
      hfollow _ ih =>
      rw [walk_eq_walkPieces, walkPieces, if_neg (not_not.mpr hdirectory),
        hstep.not_idle, if_neg Bool.false_ne_true, if_neg hstep.not_up,
        if_neg (Nat.not_lt.mpr hstep.short), hitem]
      have hgoes : ¬ (rest.isEmpty && !follow) = true := by
        rcases hfollow with hrest | rfl
        · simp [hrest]
        · simp
      exact (if_neg hgoes).trans ih

end Walk

section Changes

variable {tree after : FileTree} {follow slash : Bool} {links : Nat}
  {start place parent : Location} {name : String} {item : Item}
  {pieces idles others : List (List Char)} {destination : Destination}

/-- What is found stands where it is found. -/
theorem Leads.item?_eq
    (hleads : tree.Leads follow links start pieces destination)
    (hfound : destination = .found place item) :
    tree.item? place = some item := by
  induction hleads with
  | ends links there item hitem =>
      cases hfound
      exact hitem
  | idle _ _ _ _ _ _ _ _ ih => exact ih hfound
  | up _ _ _ _ _ _ ih => exact ih hfound
  | free _ _ _ _ _ _ _ _ => cases hfound
  | down _ _ _ _ _ _ _ _ _ _ _ ih => exact ih hfound
  | stop _ _ _ _ _ _ hitem _ =>
      cases hfound
      exact hitem
  | through _ _ _ _ _ _ _ _ _ _ _ ih => exact ih hfound

/-- A free name is one in a directory that has no item of this name. -/
theorem Leads.item?_of_free
    (hleads : tree.Leads follow links start pieces destination)
    (hfree : destination = .free parent name slash) :
    tree.item? parent = some .directory ∧
      tree.item? (parent ++ [name]) = none := by
  induction hleads with
  | ends _ _ _ _ => cases hfree
  | idle _ _ _ _ _ _ _ _ ih => exact ih hfree
  | up _ _ _ _ _ _ ih => exact ih hfree
  | free _ _ _ _ hdirectory _ hnone _ =>
      cases hfree
      exact ⟨hdirectory, hnone⟩
  | down _ _ _ _ _ _ _ _ _ _ _ ih => exact ih hfree
  | stop _ _ _ _ _ _ _ _ => cases hfree
  | through _ _ _ _ _ _ _ _ _ _ _ ih => exact ih hfree

theorem Leads.idles_append (hdirectory : tree.item? start = some .directory)
    (hidles : ∀ piece ∈ idles, Path.isIdle piece = true)
    (hrest : tree.Leads follow links start pieces destination) :
    tree.Leads follow links start (idles ++ pieces) destination := by
  induction idles with
  | nil => exact hrest
  | cons piece idles ih =>
      rw [List.forall_mem_cons] at hidles
      exact .idle _ _ _ _ _ hdirectory hidles.1 (ih hidles.2)

theorem leads_idles (follow : Bool) (links : Nat)
    (hdirectory : tree.item? start = some .directory)
    (hidles : ∀ piece ∈ idles, Path.isIdle piece = true) :
    tree.Leads follow links start idles (.found start .directory) := by
  rw [← List.append_nil idles]
  exact Leads.idles_append hdirectory hidles
    (.ends links start .directory hdirectory)

/-- What is found in a tree is found in every tree that keeps what stands in
it. -/
theorem Leads.kept (hleads : tree.Leads follow links start pieces destination)
    (hkept : tree.KeptIn after) (hfound : destination = .found place item) :
    after.Leads follow links start pieces destination := by
  induction hleads with
  | ends links there item hitem => exact .ends _ _ _ (hkept.item?_eq hitem)
  | idle _ _ _ _ _ hdirectory hidle _ ih =>
      exact .idle _ _ _ _ _ (hkept.item?_eq hdirectory) hidle (ih hfound)
  | up _ _ _ _ hdirectory _ ih =>
      exact .up _ _ _ _ (hkept.item?_eq hdirectory) (ih hfound)
  | free _ _ _ _ _ _ _ _ => cases hfound
  | down _ _ _ _ _ _ hdirectory hstep hitem hnot _ ih =>
      exact .down _ _ _ _ _ _ (hkept.item?_eq hdirectory) hstep
        (hkept.item?_eq hitem) hnot (ih hfound)
  | stop _ _ _ _ hdirectory hstep hitem hfollow =>
      exact .stop _ _ _ _ (hkept.item?_eq hdirectory) hstep
        (hkept.item?_eq hitem) hfollow
  | through _ _ _ _ _ _ hdirectory hstep hitem hfollow _ ih =>
      exact .through _ _ _ _ _ _ (hkept.item?_eq hdirectory) hstep
        (hkept.item?_eq hitem) hfollow (ih hfound)

/-- A path to a free name leads to what is put there, if a slash at its end does
not ask for more than that. -/
theorem Leads.lands (hleads : tree.Leads follow links start pieces destination)
    (hkept : tree.KeptIn after) (hfree : destination = .free parent name slash)
    (hitem : after.item? (parent ++ [name]) = some item)
    (hnot : ∀ target, item ≠ .link target)
    (hslash : slash = true → item = .directory) :
    after.Leads true links start pieces (.found (parent ++ [name]) item) := by
  induction hleads with
  | ends _ _ _ _ => cases hfree
  | idle _ _ _ _ _ hdirectory hidle _ ih =>
      exact .idle _ _ _ _ _ (hkept.item?_eq hdirectory) hidle (ih hfree)
  | up _ _ _ _ hdirectory _ ih =>
      exact .up _ _ _ _ (hkept.item?_eq hdirectory) (ih hfree)
  | free links place piece rest hdirectory hstep _ hslashes =>
      cases hfree
      refine .down _ _ _ _ _ _ (hkept.item?_eq hdirectory) hstep hitem hnot ?_
      cases rest with
      | nil => exact .ends _ _ _ hitem
      | cons next rest =>
          obtain rfl := hslash rfl
          refine leads_idles true links hitem fun piece hpiece => ?_
          have hempty := List.all_eq_true.mp hslashes piece hpiece
          simp [Path.isIdle, List.isEmpty_iff.mp hempty]
  | down _ _ _ _ _ _ hdirectory hstep hthere hnotThere _ ih =>
      exact .down _ _ _ _ _ _ (hkept.item?_eq hdirectory) hstep
        (hkept.item?_eq hthere) hnotThere (ih hfree)
  | stop _ _ _ _ _ _ _ _ => cases hfree
  | through _ _ _ _ _ _ hdirectory hstep hthere _ _ ih =>
      exact .through _ _ _ _ _ _ (hkept.item?_eq hdirectory) hstep
        (hkept.item?_eq hthere) (Or.inr rfl) (ih hfree)

/-- A path leads to a file whatever its content is. -/
theorem Leads.overwritten {content new : Option String}
    (hleads : tree.Leads true links start pieces destination)
    (hfound : destination = .found place (.file content)) :
    (tree.put place (.file new)).Leads true links start pieces
      (.found place (.file new)) := by
  have hfile := hleads.item?_eq hfound
  have hplace : place ≠ [] := by
    rintro rfl
    cases hfile
  have hsame {other : Location} {there : Item}
      (hthere : tree.item? other = some there) (hne : there ≠ .file content) :
      (tree.put place (.file new)).item? other = some there := by
    rw [item?_put hplace, if_neg, hthere]
    rintro rfl
    exact hne (Option.some.inj (hthere.symm.trans hfile))
  induction hleads with
  | ends links there item hitem =>
      cases hfound
      exact .ends _ _ _ ((item?_put hplace).trans (if_pos rfl))
  | idle _ _ _ _ _ hdirectory hidle _ ih =>
      exact .idle _ _ _ _ _ (hsame hdirectory nofun) hidle (ih hfound)
  | up _ _ _ _ hdirectory _ ih =>
      exact .up _ _ _ _ (hsame hdirectory nofun) (ih hfound)
  | free _ _ _ _ _ _ _ _ => cases hfound
  | down _ there piece _ item _ hdirectory hstep hitem hnot _ ih =>
      by_cases hhere : there ++ [String.ofList piece] = place
      · refine .down _ _ _ _ (.file new) _ (hsame hdirectory nofun) hstep ?_
          nofun (ih hfound)
        exact (item?_put hplace).trans (if_pos hhere)
      · refine .down _ _ _ _ _ _ (hsame hdirectory nofun) hstep ?_ hnot
          (ih hfound)
        exact ((item?_put hplace).trans (if_neg hhere)).trans hitem
  | stop _ _ _ _ _ _ _ _ => cases hfound
  | through _ _ _ _ _ _ hdirectory hstep hitem hfollow _ ih =>
      exact .through _ _ _ _ _ _ (hsame hdirectory nofun) hstep
        (hsame hitem nofun) hfollow (ih hfound)

/-- What is found when a link at the end is followed is there in any case, if
only as that link. -/
theorem Leads.exists_unfollowed
    (hleads : tree.Leads true links start pieces destination)
    (hfound : destination = .found place item) :
    ∃ inside there,
      tree.Leads false links start pieces (.found inside there) := by
  induction hleads with
  | ends links there item hitem => exact ⟨_, _, .ends _ _ _ hitem⟩
  | idle _ _ _ _ _ hdirectory hidle _ ih =>
      obtain ⟨inside, there, hrest⟩ := ih hfound
      exact ⟨inside, there, .idle _ _ _ _ _ hdirectory hidle hrest⟩
  | up _ _ _ _ hdirectory _ ih =>
      obtain ⟨inside, there, hrest⟩ := ih hfound
      exact ⟨inside, there, .up _ _ _ _ hdirectory hrest⟩
  | free _ _ _ _ _ _ _ _ => cases hfound
  | down _ _ _ _ _ _ hdirectory hstep hitem hnot _ ih =>
      obtain ⟨inside, there, hrest⟩ := ih hfound
      exact ⟨inside, there, .down _ _ _ _ _ _ hdirectory hstep hitem hnot hrest⟩
  | stop _ _ _ _ _ _ _ hfollow => cases hfollow
  | through _ _ _ rest _ _ hdirectory hstep hitem _ _ ih =>
      by_cases hlast : rest = []
      · subst hlast
        exact ⟨_, _, .stop _ _ _ _ hdirectory hstep hitem rfl⟩
      · obtain ⟨inside, there, hrest⟩ := ih hfound
        exact ⟨inside, there,
          .through _ _ _ _ _ _ hdirectory hstep hitem (Or.inl hlast) hrest⟩

/-- Pieces that make the same steps lead to the same directory. -/
theorem Leads.same_steps
    (hleads : tree.Leads true links start pieces destination)
    (hfound : destination = .found place .directory)
    (hsame : others.filter (fun piece => !Path.isIdle piece) =
      pieces.filter fun piece => !Path.isIdle piece) :
    tree.Leads true links start others destination := by
  induction hleads generalizing others with
  | ends links there item hitem =>
      cases hfound
      refine leads_idles true links hitem ?_
      simpa [List.filter_eq_nil_iff] using hsame
  | idle _ _ _ _ _ hdirectory hidle _ ih =>
      rw [List.filter_cons_of_neg (by simp [hidle])] at hsame
      exact ih hfound hsame
  | up _ _ _ _ hdirectory _ ih =>
      obtain ⟨idles, more, rfl, hidles, hmore⟩ :=
        Path.exists_idles_before rfl hsame
      exact Leads.idles_append hdirectory hidles
        (.up _ _ _ _ hdirectory (ih hfound hmore))
  | free _ _ _ _ _ _ _ _ => cases hfound
  | down _ _ _ _ _ _ hdirectory hstep hitem hnot _ ih =>
      obtain ⟨idles, more, rfl, hidles, hmore⟩ :=
        Path.exists_idles_before hstep.not_idle hsame
      exact Leads.idles_append hdirectory hidles
        (.down _ _ _ _ _ _ hdirectory hstep hitem hnot (ih hfound hmore))
  | stop _ _ _ _ _ _ _ hfollow => cases hfollow
  | through _ _ _ _ target _ hdirectory hstep hitem _ _ ih =>
      obtain ⟨idles, more, rfl, hidles, hmore⟩ :=
        Path.exists_idles_before hstep.not_idle hsame
      refine Leads.idles_append hdirectory hidles
        (.through _ _ _ _ _ _ hdirectory hstep hitem (Or.inr rfl)
          (ih hfound ?_))
      rw [List.filter_append, List.filter_append, hmore]

end Changes

section Paths

variable {tree after : FileTree} {follow slash : Bool} {place parent : Location}
  {name : String} {item : Item} {p : Path} {destination : Destination}

theorem resolve_eq_ok_iff_leads :
    tree.resolve follow p = .ok destination ↔
      p.IsAllowed ∧
      tree.Leads follow linkLimit (tree.start p) p.pieces destination := by
  rw [resolve_eq_ok_iff, walk_eq_ok_iff]

theorem find_eq_ok_iff_leads :
    tree.find follow p = .ok (place, item) ↔
      p.IsAllowed ∧
      tree.Leads follow linkLimit (tree.start p) p.pieces
        (.found place item) := by
  rw [find_eq_ok_iff_resolve, resolve_eq_ok_iff_leads]

theorem KeptIn.find_eq (hkept : tree.KeptIn after)
    (hfound : tree.find follow p = .ok (place, item)) :
    after.find follow p = .ok (place, item) := by
  rw [find_eq_ok_iff_leads] at hfound ⊢
  rw [hkept.start_eq]
  exact ⟨hfound.1, hfound.2.kept hkept rfl⟩

theorem item?_of_resolve_free
    (hfree : tree.resolve follow p = .ok (.free parent name slash)) :
    tree.item? parent = some .directory ∧
      tree.item? (parent ++ [name]) = none :=
  (resolve_eq_ok_iff_leads.mp hfree).2.item?_of_free rfl

/-- A path to a free name leads to what is put there. -/
theorem find_put_of_free
    (hfree : tree.resolve follow p = .ok (.free parent name slash))
    (hnot : ∀ target, item ≠ .link target)
    (hslash : slash = true → item = .directory) :
    (tree.put (parent ++ [name]) item).find true p =
      .ok (parent ++ [name], item) := by
  have hkept : tree.KeptIn (tree.put (parent ++ [name]) item) :=
    (growsBy_put (item?_of_resolve_free hfree).2).keptIn
  have hplace : parent ++ [name] ≠ [] :=
    List.append_ne_nil_of_right_ne_nil _ (List.cons_ne_nil _ _)
  obtain ⟨hallowed, hleads⟩ := resolve_eq_ok_iff_leads.mp hfree
  rw [find_eq_ok_iff_leads, hkept.start_eq]
  exact ⟨hallowed,
    hleads.lands hkept rfl ((item?_put hplace).trans (if_pos rfl)) hnot hslash⟩

theorem find_put_of_file {content : Option String}
    (hfound : tree.find true p = .ok (place, .file content))
    (new : Option String) :
    (tree.put place (.file new)).find true p = .ok (place, .file new) := by
  rw [find_eq_ok_iff_leads] at hfound ⊢
  rw [start, current_put, ← start]
  exact ⟨hfound.1, hfound.2.overwritten rfl⟩

theorem exists_resolve_of_find (hfound : tree.find true p = .ok (place, item)) :
    ∃ inside there, tree.resolve false p = .ok (.found inside there) := by
  obtain ⟨hallowed, hleads⟩ := find_eq_ok_iff_leads.mp hfound
  obtain ⟨inside, there, hthere⟩ := hleads.exists_unfollowed rfl
  exact ⟨inside, there, resolve_eq_ok_iff_leads.mpr ⟨hallowed, hthere⟩⟩

end Paths

end FileTree

end WebConfigAudit
