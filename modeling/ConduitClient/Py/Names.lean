import ConduitClient.Py.Path

/-!
# Places

Where paths lead. A file tree has places (`Loc`); how the operating system of a host gets from a
path to a place, by drives, mounts and symbolic links, by its way with `..` and with the case
of letters, is a parameter (`Names`). It is the same at all times: the links stay what they are.

`Names.Linkless` is what is known of a part of the tree without links, and `Names.tree` is how a
POSIX host finds its way in a tree with given links.
-/

namespace Py

/-- A place in the file tree: the names from the root down. -/
abbrev Loc := List String

/-- How a host finds its way. -/
structure Names where
  /-- The place that a path leads to. -/
  place : PurePath → Loc
  /-- The places that must be directories for a path to lead anywhere. Those that hold a link on
  the way are left out: they are there because the link is. -/
  through : PurePath → List Loc

namespace Names

/-- The places of a path and of the paths above it, from the root down. -/
def way (N : Names) (p : PurePath) : List Loc :=
  p.parts.inits.map fun parts => N.place { p with parts := parts }

/-- There are no links below `bin`: each name is that of an entry, where `fold` says which names
the file system takes for one and the same. -/
structure Linkless (N : Names) (f : Flavour) (fold : String → String) (bin : Loc) : Prop where
  place {p : PurePath} {c : String} : bin <+: N.place p → Plain f c →
    N.place (p.child c) = N.place p ++ [fold c]
  through {p : PurePath} {c : String} : bin <+: N.place p → Plain f c →
    ∀ loc ∈ N.through (p.child c), loc ∈ N.through p ∨ loc = N.place p

/-! ### A tree with links -/

/-- One component of a walk: up, or to the entry of that name, and on where this is a link. -/
def walk (fold : String → String) (links : List (Loc × Loc)) (loc : Loc) (c : String) : Loc :=
  if c = ".." then loc.dropLast
  else (links.lookup (loc ++ [fold c])).getD (loc ++ [fold c])

/-- How a POSIX host finds its way from the root, in a tree with the given links and their
targets. -/
def tree (fold : String → String) (links : List (Loc × Loc)) : Names where
  place p := p.parts.foldl (walk fold links) []
  through p := (p.parts.dropLast.inits.map fun parts => parts.foldl (walk fold links) []).filter
    fun loc => links.all fun link => ¬ loc <+: link.1.dropLast

/-- The names of a host without links, on a file system that tells all names apart. -/
def posix : Names := tree id []

variable {N : Names} {p : PurePath} {c : String}

theorem place_mem_way : N.place p ∈ N.way p :=
  List.mem_map.mpr ⟨p.parts, by simp, rfl⟩

theorem way_child : N.way (p.child c) = N.way p ++ [N.place (p.child c)] := by
  simp [way, PurePath.child, List.inits_append]

section Tree

variable {fold : String → String} {links : List (Loc × Loc)}

theorem tree_place_child : (tree fold links).place (p.child c) =
    walk fold links ((tree fold links).place p) c := by
  simp [tree, PurePath.child]

/-- Where no link is below `bin`, nothing else is known about the names there. -/
theorem tree_linkless {f : Flavour} {bin : Loc}
    (hlinks : ∀ link ∈ links, bin <+: link.1 → link.1 = bin) :
    (tree fold links).Linkless f fold bin where
  place {p c} hbin hc := by
    rw [tree_place_child, walk, if_neg hc.2.2.1]
    -- a link there would be below `bin`
    have hnone : links.lookup ((tree fold links).place p ++ [fold c]) = none := by
      rw [List.lookup_eq_none_iff]
      intro link hlink
      rw [bne_iff_ne]
      intro he
      have hbelow : bin <+: link.1 := he ▸ hbin.trans (List.prefix_append _ _)
      have hlen := hbin.length_le
      rw [← hlinks link hlink hbelow, ← he, List.length_append, List.length_singleton] at hlen
      omega
    rw [hnone, Option.getD_none]
  through {p c} _ _ loc hloc := by
    have hparts : (p.child c).parts.dropLast = p.parts := by simp [PurePath.child]
    rw [tree, List.mem_filter, List.mem_map, hparts] at hloc
    obtain ⟨⟨parts, hparts, rfl⟩, hall⟩ := hloc
    rw [List.mem_inits] at hparts
    -- the walk to `p` itself, or to a path above it
    rcases List.eq_nil_or_concat p.parts with hnil | ⟨front, d, hlast⟩
    · rw [hnil, List.prefix_nil] at hparts
      subst hparts
      exact Or.inr (by simp [tree, hnil])
    · rw [List.concat_eq_append] at hlast
      rw [hlast, List.prefix_concat_iff] at hparts
      rcases hparts with rfl | hfront
      · exact Or.inr (by simp [tree, hlast])
      · refine Or.inl (List.mem_filter.mpr ⟨List.mem_map.mpr ⟨parts, ?_, rfl⟩, hall⟩)
        rw [List.mem_inits, hlast, List.dropLast_concat]
        exact hfront

theorem posix_linkless (f : Flavour) (bin : Loc) : posix.Linkless f id bin :=
  tree_linkless fun _ hlink => absurd hlink List.not_mem_nil

end Tree

end Names

/-- A link takes the walk elsewhere, and `..` goes up from there. -/
example :
    let N := Names.tree id [(["home", "cache"], ["mnt", "cache"])]
    N.place (PurePath.rooted ["home", "cache", "bin"]) = ["mnt", "cache", "bin"] ∧
      N.place (PurePath.rooted ["home", "cache", "..", "bin"]) = ["mnt", "bin"] ∧
      N.through (PurePath.rooted ["home", "cache", "bin"]) = [["mnt", "cache"]] := by
  decide

end Py
