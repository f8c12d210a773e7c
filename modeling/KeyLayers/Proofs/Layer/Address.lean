import KeyLayers.Proofs.Layer.Place
import Mathlib.Data.List.Flatten
import Mathlib.Data.List.Nodup

/-!
# Addresses of entries

The address of an entry is the path of its layer with its own key at the end.
No two entries of a tree have the same address (`TreeEntries.nodup_addresses`),
so the list of places holds each entry once.

`Introduced` is about the order of the places: whatever stands in a layer comes
after the entry that the layer is entered by (`TreeEntries.introduced_places`).
-/

namespace KeyLayers

namespace TreePlace

/-- The keys that lead to an entry, its own key last. -/
def address (place : TreePlace) : LeaderPath :=
  place.path.child place.key

/-- The layers that an entry leads into: its own address, if it is one. -/
def entered (place : TreePlace) : List LeaderPath :=
  if place.tree.isLayer then [place.address] else []

end TreePlace

namespace TreeEntries

/-! ## Every entry once -/

/-- What is inside a layer, entry by entry instead of layers before leaves. -/
theorem inside_perm (path : LeaderPath) (entries : TreeEntries) :
    (inside path entries).Perm
      (entries.flatMap fun entry => entry.2.places path entries.layerKeys entry.1) := by
  have leaves : (entries.filter (!·.2.isLayer)).map (fun entry =>
        (⟨path, entries.layerKeys, entry.1, entry.2⟩ : TreePlace)) =
      (entries.filter (!·.2.isLayer)).flatMap fun entry =>
        entry.2.places path entries.layerKeys entry.1 := by
    rw [List.map_eq_flatMap]
    apply List.flatMap_congr
    rintro ⟨key, leaf | inner⟩ member
    · simp [Tree.places]
    · simp [Tree.isLayer] at member
  rw [inside, nestedPlaces_eq_flatMap, leaves, ← List.flatMap_append]
  exact (List.filter_append_perm _ entries).flatMap_right _

theorem inside_perm_places (tree : TreeEntries) : (inside .root tree).Perm tree.places :=
  inside_perm .root tree

/-- An entry and everything inside it have addresses that begin with its own. -/
theorem address_of_mem_places {path : LeaderPath} {layers : List Key} {key : Key}
    {bound : Tree} {place : TreePlace} (within : place ∈ bound.places path layers key) :
    (path.child key).keys <+: place.address.keys := by
  cases bound with
  | leaf leaf =>
      rw [Tree.places, List.mem_singleton] at within
      rw [within]
      exact List.prefix_rfl
  | layer inner =>
      rw [places_layer, List.mem_cons] at within
      rcases within with rfl | deeper
      · exact List.prefix_rfl
      · exact (path_of_mem_inside deeper).trans (List.prefix_append _ _)

theorem nodup_addresses_inside {entries : TreeEntries} (distinct : entries.Distinct)
    (path : LeaderPath) : ((inside path entries).map TreePlace.address).Nodup := by
  induction entries using layer_induction generalizing path with
  | step entries ih =>
      rw [((inside_perm path entries).map TreePlace.address).nodup_iff, List.map_flatMap,
        List.nodup_flatMap]
      constructor
      · rintro ⟨key, leaf | inner⟩ member
        · simp [Tree.places]
        · rw [places_layer, List.map_cons, List.nodup_cons]
          refine ⟨?_, ih key inner member (distinct.inner member) _⟩
          intro again
          rcases List.mem_map.1 again with ⟨place, deeper, same⟩
          have longer := (path_of_mem_inside deeper).length_le
          have lengths := congrArg (fun address => address.keys.length) same
          simp only [TreePlace.address, LeaderPath.keys_child, List.length_append,
            List.length_singleton] at longer lengths
          omega
      · have different : entries.Pairwise fun left right => left.1 ≠ right.1 :=
          List.pairwise_map.1 distinct.unambiguous
        apply different.imp
        -- an address that begins with both keys would make them one
        rintro ⟨first, left⟩ ⟨second, right⟩ apart address inLeft inRight
        rcases List.mem_map.1 inLeft with ⟨leftPlace, leftWithin, rfl⟩
        rcases List.mem_map.1 inRight with ⟨rightPlace, rightWithin, same⟩
        have rightPrefix := address_of_mem_places rightWithin
        rw [same] at rightPrefix
        exact apart (LeaderPath.key_of_child_prefix (address_of_mem_places leftWithin)
          rightPrefix)

/-- No two entries of a tree have one address. -/
theorem nodup_addresses {tree : TreeEntries} (distinct : tree.Distinct) :
    (tree.places.map TreePlace.address).Nodup :=
  ((inside_perm_places tree).map TreePlace.address).nodup_iff.1
    (nodup_addresses_inside distinct .root)

theorem nodup_places {tree : TreeEntries} (distinct : tree.Distinct) : tree.places.Nodup :=
  (nodup_addresses distinct).of_map TreePlace.address

/-! ## Layers before what they hold -/

/-- Whether each place comes after the layers on its path, of which some are known. -/
inductive Introduced : List LeaderPath → List TreePlace → Prop where
  | nil (known : List LeaderPath) : Introduced known []
  | cons {known : List LeaderPath} {place : TreePlace} {rest : List TreePlace}
      (around : ∀ layer ∈ place.path.chain, layer ∈ known)
      (later : Introduced (place.entered ++ known) rest) :
      Introduced known (place :: rest)

theorem Introduced.mono {known more : List LeaderPath} {places : List TreePlace}
    (introduced : Introduced known places) (within : known ⊆ more) :
    Introduced more places := by
  induction introduced generalizing more with
  | nil known => exact .nil more
  | cons around later ih =>
      refine .cons (fun layer member => within (around layer member)) (ih ?_)
      intro layer member
      rcases List.mem_append.1 member with new | old
      · exact List.mem_append_left _ new
      · exact List.mem_append_right _ (within old)

theorem Introduced.append {known : List LeaderPath} {places others : List TreePlace}
    (first : Introduced known places) (second : Introduced known others) :
    Introduced known (places ++ others) := by
  induction first with
  | nil known => exact second
  | cons around later ih =>
      exact .cons around (ih (second.mono (List.subset_append_right _ _)))

theorem Introduced.flatMap {α : Type} {known : List LeaderPath} {items : List α}
    {f : α → List TreePlace} (each : ∀ item ∈ items, Introduced known (f item)) :
    Introduced known (items.flatMap f) := by
  induction items with
  | nil => exact .nil known
  | cons item rest ih =>
      rw [List.flatMap_cons]
      exact (each item (.head _)).append (ih fun other member => each other (.tail _ member))

/-- An entry of a layer that is known, with what is inside it. -/
theorem Introduced.places {known : List LeaderPath} {path : LeaderPath} {layers : List Key}
    {key : Key} {bound : Tree} (around : ∀ layer ∈ path.chain, layer ∈ known)
    (deeper : ∀ inner, bound = .layer inner →
      (∀ layer ∈ (path.child key).chain, layer ∈ path.child key :: known) →
        Introduced (path.child key :: known) (inside (path.child key) inner)) :
    Introduced known (bound.places path layers key) := by
  cases bound with
  | leaf leaf =>
      rw [Tree.places]
      exact .cons around (.nil _)
  | layer inner =>
      rw [places_layer]
      refine .cons around (deeper inner rfl ?_)
      intro layer member
      rw [LeaderPath.chain_child, List.mem_append, List.mem_singleton] at member
      rcases member with outer | rfl
      · exact .tail _ (around layer outer)
      · exact .head _

theorem introduced_inside {known : List LeaderPath} {path : LeaderPath}
    {entries : TreeEntries} (around : ∀ layer ∈ path.chain, layer ∈ known) :
    Introduced known (inside path entries) := by
  induction entries using layer_induction generalizing known path with
  | step entries ih =>
      rw [inside, nestedPlaces_eq_flatMap, List.map_eq_flatMap]
      apply Introduced.append
      · apply Introduced.flatMap
        rintro ⟨key, bound⟩ member
        apply Introduced.places around
        rintro inner rfl further
        exact ih key inner (List.mem_of_mem_filter member) further
      · exact Introduced.flatMap fun entry _ => .cons around (.nil _)

/-- In the order of the manipulators each layer is entered before it is asked for. -/
theorem introduced_places (tree : TreeEntries) : Introduced [] tree.places := by
  apply Introduced.flatMap
  rintro ⟨key, bound⟩ -
  exact Introduced.places (by simp) fun inner _ further => introduced_inside further

end TreeEntries

end KeyLayers
