import WebConfigAudit.FileTree.Edit
import WebConfigAudit.Proofs.PlainTree
/-!
Growing file trees.  An item that is put at a place changes nothing elsewhere,
and where nothing stands it only adds to the tree.
-/

namespace WebConfigAudit

namespace FileTree

section Put

variable {tree : FileTree} {place other : Location} {item there : Item}

theorem mem_put :
    (other, there) ∈ (tree.put place item).items ↔
      if other = place then there = item else (other, there) ∈ tree.items := by
  unfold put
  split
  · next hmem =>
      rw [List.mem_map]
      split
      · next heq =>
          constructor
          · rintro ⟨entry, _, hentry⟩
            split at hentry
            · exact (congrArg Prod.snd hentry).symm
            · next hne =>
                exact absurd ((congrArg Prod.fst hentry).trans heq) hne
          · rintro rfl
            obtain ⟨entry, hentry, hplace⟩ := List.mem_map.mp hmem
            refine ⟨entry, hentry, ?_⟩
            rw [if_pos hplace, hplace, heq]
      · next hne =>
          constructor
          · rintro ⟨entry, hentry, hsame⟩
            split at hsame
            · next hplace =>
                exact absurd ((congrArg Prod.fst hsame).symm.trans hplace) hne
            · exact hsame ▸ hentry
          · exact fun hentry => ⟨_, hentry, if_neg hne⟩
  · next hmem =>
      rw [List.mem_append, List.mem_singleton, Prod.mk.injEq]
      split
      · next heq =>
          subst heq
          have hnot : (other, there) ∉ tree.items := fun h =>
            hmem (List.mem_map_of_mem h)
          simp [hnot]
      · next hne => simp [hne]

/-- An item that is put at a place stands there, and everything else stands
where it stood. -/
theorem item?_put (hplace : place ≠ []) :
    (tree.put place item).item? other = if other = place then some item
      else tree.item? other := by
  by_cases hother : other = []
  · rw [hother, item?_root, item?_root, if_neg (Ne.symm hplace)]
  · ext there
    have hiff : (tree.put place item).item? other = some there ↔
        (other, there) ∈ (tree.put place item).items :=
      ⟨mem_of_item? hother, item?_of_mem hother⟩
    rw [hiff, mem_put]
    split
    · rw [Option.some.injEq, eq_comm]
    · exact ⟨item?_of_mem hother, mem_of_item? hother⟩

theorem current_put (tree : FileTree) (place : Location) (item : Item) :
    (tree.put place item).current = tree.current := by
  unfold put
  split
  · rfl
  · rfl

end Put

section Kept

variable {tree mid after : FileTree} {place : Location} {item : Item}
  {name : String}

/-- Whatever stands in the tree stands in the other one too, and relative paths
start where they started. -/
structure KeptIn (tree after : FileTree) : Prop where
  items : ∀ place item, tree.item? place = some item →
    after.item? place = some item
  current_eq : after.current = tree.current

theorem KeptIn.item?_eq (hkept : tree.KeptIn after)
    (hitem : tree.item? place = some item) : after.item? place = some item :=
  hkept.items place item hitem

theorem KeptIn.item?_eq_none (hkept : tree.KeptIn after)
    (hnone : after.item? place = none) : tree.item? place = none := by
  by_contra hsome
  obtain ⟨item, hitem⟩ := Option.ne_none_iff_exists'.mp hsome
  rw [hkept.item?_eq hitem] at hnone
  cases hnone

theorem KeptIn.refl (tree : FileTree) : tree.KeptIn tree :=
  ⟨fun _ _ => id, rfl⟩

theorem KeptIn.trans (hmid : tree.KeptIn mid) (hafter : mid.KeptIn after) :
    tree.KeptIn after :=
  ⟨fun _ _ hitem => hafter.item?_eq (hmid.item?_eq hitem),
    hafter.current_eq.trans hmid.current_eq⟩

theorem KeptIn.start_eq (hkept : tree.KeptIn after) (p : Path) :
    after.start p = tree.start p := by
  rw [start, start, hkept.current_eq]

/-- The tree has got new items behind its own. -/
structure GrowsBy (tree : FileTree) (added : List (Location × Item))
    (after : FileTree) : Prop where
  items_eq : after.items = tree.items ++ added
  current_eq : after.current = tree.current
  room_eq : after.room = tree.room

variable {added more : List (Location × Item)}

theorem GrowsBy.refl (tree : FileTree) : tree.GrowsBy [] tree :=
  ⟨(List.append_nil _).symm, rfl, rfl⟩

theorem GrowsBy.trans (hmid : tree.GrowsBy added mid)
    (hafter : mid.GrowsBy more after) : tree.GrowsBy (added ++ more) after where
  items_eq := by rw [hafter.items_eq, hmid.items_eq, List.append_assoc]
  current_eq := hafter.current_eq.trans hmid.current_eq
  room_eq := hafter.room_eq.trans hmid.room_eq

theorem GrowsBy.keptIn (hgrows : tree.GrowsBy added after) :
    tree.KeptIn after where
  items place item hitem := by
    by_cases hplace : place = []
    · rwa [hplace, item?_root] at hitem ⊢
    · refine item?_of_mem hplace ?_
      rw [hgrows.items_eq]
      exact List.mem_append_left _ (mem_of_item? hplace hitem)
  current_eq := hgrows.current_eq

/-- An item that is put where nothing stands comes behind all others. -/
theorem growsBy_put (hnone : tree.item? place = none) :
    tree.GrowsBy [(place, item)] (tree.put place item) := by
  have hmem : place ∉ tree.items.map Prod.fst := by
    intro hmem
    have hplace : place ≠ [] := by
      rintro rfl
      cases hnone
    obtain ⟨entry, hentry, rfl⟩ := List.mem_map.mp hmem
    rw [item?_of_mem hplace hentry] at hnone
    cases hnone
  rw [put, dif_neg hmem]
  exact ⟨rfl, rfl, rfl⟩

theorem IsEnclosed.put (henclosed : tree.IsEnclosed)
    (hdirectory : tree.item? place = some .directory)
    (hnone : tree.item? (place ++ [name]) = none) (item : Item) :
    (tree.put (place ++ [name]) item).IsEnclosed := by
  have hgrows : tree.GrowsBy _ (tree.put (place ++ [name]) item) :=
    growsBy_put hnone
  intro entry hentry
  rw [hgrows.items_eq, List.mem_append, List.mem_singleton] at hentry
  refine hgrows.keptIn.item?_eq ?_
  rcases hentry with hold | rfl
  · exact henclosed entry hold
  · rwa [List.dropLast_concat]

/-- Nothing stands below a place where there is no directory. -/
theorem IsEnclosed.item?_below (henclosed : tree.IsEnclosed)
    (hnot : tree.item? place ≠ some .directory) (name : String) :
    tree.item? (place ++ [name]) = none := by
  by_contra hsome
  obtain ⟨item, hitem⟩ := Option.ne_none_iff_exists'.mp hsome
  exact hnot (henclosed.directory_above hitem)

end Kept

end FileTree

end WebConfigAudit
