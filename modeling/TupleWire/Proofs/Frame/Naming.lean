import Mathlib.Data.List.Induction
import Mathlib.Data.List.Nodup
import Mathlib.Data.List.Perm.Subperm
import TupleWire.Frame.Object

/-! The entries of an object under their keys, and under the texts of their keys. A key stands for
its first entry and a text for its last one. Keys that are not text may share a text, so the two
ways to look up a value agree only if all keys differ as texts. -/
namespace TupleWire

theorem filter_eq_singleton {α β : Type} [DecidableEq β] {f : α → β} {items : List α}
    (different : (items.map f).Nodup) {item : α} (member : item ∈ items) :
    (items.filter fun other => f other = f item) = [item] := by
  induction items with
  | nil => cases member
  | cons first items ih =>
      obtain ⟨fresh, others⟩ := List.nodup_cons.mp different
      have apart : ∀ other ∈ items, f other ≠ f first := fun other later same =>
        fresh (same ▸ List.mem_map_of_mem later)
      rcases List.mem_cons.mp member with rfl | later
      · rw [List.filter_cons_of_pos (by simp), List.filter_eq_nil_iff.mpr (by simpa using apart)]
      · rw [List.filter_cons_of_neg (by simpa using (apart item later).symm), ih others later]

theorem lookup_cons_eq_ite {κ β : Type} [BEq κ] [LawfulBEq κ] [DecidableEq κ] (key : κ)
    (entry : κ × β) (entries : List (κ × β)) :
    (entry :: entries).lookup key = if key = entry.1 then some entry.2 else entries.lookup key := by
  by_cases same : key = entry.1
  · subst same
    rw [List.lookup_cons_self, if_pos rfl]
  · rw [List.lookup_cons, beq_false_of_ne same, if_neg same]

/-- What is relied on in a map: at first it has no members, and a member that is set replaces the
one of an equal name. -/
structure MemberMap.Replaces {μ : Type} (map : MemberMap μ) : Prop where
  members_empty : map.members map.empty = []
  members_insert (known : μ) (name value : String) :
    (map.members (map.insert known name value)).Perm
      ((name, value) :: (map.members known).filter (·.1 ≠ name))

theorem replaces_listMap : listMap.Replaces where
  members_empty := rfl
  members_insert _ _ _ := List.perm_append_singleton _ _

namespace Object

theorem get?_eq_first (object : Object) (key : Bytes) :
    object.get? key = (object.entries.filter fun entry => entry.1 = key).head?.map Prod.snd := by
  rw [get?]
  induction object.entries with
  | nil => rfl
  | cons entry entries ih =>
      rw [lookup_cons_eq_ite]
      by_cases here : entry.1 = key
      · rw [if_pos here.symm, List.filter_cons_of_pos (by simpa using here)]
        rfl
      · rw [if_neg fun same => here same.symm, List.filter_cons_of_neg (by simpa using here)]
        exact ih

section Members

variable {μ : Type} {map : MemberMap μ} (replaces : map.Replaces) (text : Bytes → String)

theorem toMap_concat (entries : List (Bytes × Bytes)) (last : Bytes × Bytes) :
    toMap text map ⟨entries ++ [last]⟩ =
      map.insert (toMap text map ⟨entries⟩) (text last.1) (text last.2) := by
  rw [toMap, List.foldl_append]
  rfl

include replaces

theorem nodup_members (object : Object) :
    ((map.members (object.toMap text map)).map Prod.fst).Nodup := by
  obtain ⟨entries⟩ := object
  induction entries using List.reverseRecOn with
  | nil =>
      rw [toMap, List.foldl_nil, replaces.members_empty]
      exact .nil
  | append_singleton entries last ih =>
      rw [toMap_concat]
      refine ((replaces.members_insert _ _ _).map _).nodup_iff.mpr (List.nodup_cons.mpr ⟨?_, ?_⟩)
      · rw [List.mem_map]
        rintro ⟨member, kept, same⟩
        exact of_decide_eq_true (List.mem_filter.mp kept).2 same
      · exact ih.sublist (List.filter_sublist.map _)

/-- The value under a name is the text of the last entry's whose key has that text. -/
theorem mem_members_iff (object : Object) (name value : String) :
    (name, value) ∈ map.members (object.toMap text map) ↔
      (object.entries.filter fun entry => text entry.1 = name).getLast?.map (text ·.2) =
        some value := by
  obtain ⟨entries⟩ := object
  induction entries using List.reverseRecOn with
  | nil =>
      rw [toMap, List.foldl_nil, replaces.members_empty]
      exact iff_of_false List.not_mem_nil nofun
  | append_singleton entries last ih =>
      rw [toMap_concat, (replaces.members_insert _ _ _).mem_iff, List.mem_cons, List.mem_filter, ih,
        List.filter_append]
      by_cases here : text last.1 = name
      · subst here
        simp [eq_comm]
      · have other : name ≠ text last.1 := fun same => here same.symm
        simp [here, other]

theorem mem_names_iff (object : Object) (name : String) :
    name ∈ (map.members (object.toMap text map)).map Prod.fst ↔
      ∃ entry ∈ object.entries, text entry.1 = name := by
  have shown : name ∈ (map.members (object.toMap text map)).map Prod.fst ↔
      ∃ value, (name, value) ∈ map.members (object.toMap text map) := by
    simp
  rw [shown]
  constructor
  · rintro ⟨value, member⟩
    rw [mem_members_iff replaces, Option.map_eq_some_iff] at member
    obtain ⟨entry, last, -⟩ := member
    obtain ⟨inside, same⟩ := List.mem_filter.mp (List.mem_of_getLast? last)
    exact ⟨entry, inside, of_decide_eq_true same⟩
  · rintro ⟨entry, inside, same⟩
    have filtered : entry ∈ object.entries.filter fun entry => text entry.1 = name :=
      List.mem_filter.mpr ⟨inside, decide_eq_true same⟩
    have found := List.getLast?_eq_some_getLast (List.ne_nil_of_mem filtered)
    refine ⟨text (List.getLast _ (List.ne_nil_of_mem filtered)).2,
      (mem_members_iff replaces text object name _).mpr ?_⟩
    rw [found, Option.map_some]

theorem length_members_eq_iff (object : Object) :
    (map.members (object.toMap text map)).length = object.size ↔
      (object.entries.map fun entry => text entry.1).Nodup := by
  let names := (map.members (object.toMap text map)).map Prod.fst
  let texts := object.entries.map fun entry => text entry.1
  have all : ∀ name, name ∈ names ↔ name ∈ texts := fun name =>
    (mem_names_iff replaces text object name).trans List.mem_map.symm
  have distinct : names.Nodup := nodup_members replaces text object
  have part := List.subperm_of_subset distinct fun name => (all name).mp
  have sizes : (map.members (object.toMap text map)).length = object.size ↔
      names.length = texts.length := by
    rw [List.length_map, List.length_map, size]
  rw [sizes]
  constructor
  · intro same
    exact (part.perm_of_length_le (Nat.le_of_eq same.symm)).nodup_iff.mp distinct
  · intro different
    have every := List.subperm_of_subset different fun name => (all name).mpr
    exact Nat.le_antisymm part.length_le every.length_le

end Members

end Object

/-- An object as a map has one member for each text that its keys have, with the text of the value
of the last entry under it, while a key finds the value of its first entry. There are as many
members as entries exactly if all keys differ as texts, and then each key finds under its text the
text of what it finds itself. This is so whatever the text of bytes is. -/
theorem get_and_members_agree {μ : Type} {map : MemberMap μ} (replaces : map.Replaces)
    (text : Bytes → String) (object : Object) :
    let members := map.members (object.toMap text map)
    (∀ key, object.get? key =
      (object.entries.filter fun entry => entry.1 = key).head?.map Prod.snd) ∧
    (members.map Prod.fst).Nodup ∧
    (∀ name, name ∈ members.map Prod.fst ↔ ∃ entry ∈ object.entries, text entry.1 = name) ∧
    (∀ name value, (name, value) ∈ members ↔
      (object.entries.filter fun entry => text entry.1 = name).getLast?.map (text ·.2) =
        some value) ∧
    (members.length = object.size ↔ (object.entries.map fun entry => text entry.1).Nodup) ∧
    ((object.entries.map fun entry => text entry.1).Nodup → ∀ entry ∈ object.entries,
      ∃ value, object.get? entry.1 = some value ∧ (text entry.1, text value) ∈ members) := by
  intro members
  have lastShown := Object.mem_members_iff replaces text object
  refine ⟨object.get?_eq_first, Object.nodup_members replaces text object,
    Object.mem_names_iff replaces text object, lastShown,
    Object.length_members_eq_iff replaces text object,
    fun different entry member => ⟨entry.2, ?_, ?_⟩⟩
  · have keys : (object.entries.map Prod.fst).Nodup :=
      List.Nodup.of_map text (by rwa [List.map_map])
    rw [object.get?_eq_first, filter_eq_singleton keys member, List.head?_cons, Option.map_some]
  · rw [lastShown, filter_eq_singleton different member]
    rfl

/-- Two keys that are no text become one member, and the other entry's value is the one shown; with
other keys each keeps its own. -/
theorem get_and_members_agree_stray :
    let payload : Bytes := [112, 0, 0, 0, 2, 0, 0, 32, 1, 0, 0, 0, 1, 0, 0, 0, 1, 0, 0, 0,
      1, 0, 0, 0, 0xFF, 0xFE, 0x61, 0x62]
    let stray : Object := ⟨[([0xFF], [0x61]), ([0xFE], [0x62])]⟩
    let plain : Object := ⟨[([0x6B], [0x61]), ([0x6C], [0x62])]⟩
    listMap.Replaces ∧ Object.read payload = .ok stray ∧
      stray.get? [0xFF] = some [0x61] ∧
      (∀ value, ("\uFFFD", value) ∈ listMap.members (stray.toMap Text.lossy listMap) ↔
        value = "b") ∧
      (listMap.members (stray.toMap Text.lossy listMap)).length ≠ stray.size ∧
      (listMap.members (plain.toMap Text.lossy listMap)).length = plain.size ∧
      ("k", "a") ∈ listMap.members (plain.toMap Text.lossy listMap) := by
  intro payload stray plain
  obtain ⟨first, -, -, last, lengths, -⟩ :=
    get_and_members_agree replaces_listMap Text.lossy stray
  obtain ⟨-, -, -, -, plainLengths, plainShown⟩ :=
    get_and_members_agree replaces_listMap Text.lossy plain
  have different : (plain.entries.map fun entry => Text.lossy entry.1).Nodup := by decide +kernel
  have same : ¬ (stray.entries.map fun entry => Text.lossy entry.1).Nodup := by decide +kernel
  have shown : (stray.entries.filter fun entry => Text.lossy entry.1 = "\uFFFD").getLast?.map
      (Text.lossy ·.2) = some "b" := by decide +kernel
  refine ⟨replaces_listMap, by decide +kernel, (first _).trans (by decide +kernel), fun value => ?_,
    fun equal => same (lengths.mp equal), plainLengths.mpr different, ?_⟩
  · rw [last, shown, Option.some.injEq]
    exact eq_comm
  · obtain ⟨value, found, member⟩ := plainShown different ([0x6B], [0x61]) List.mem_cons_self
    have own : value = [0x61] := Option.some.inj (found.symm.trans (by decide +kernel))
    have texts : Text.lossy [0x6B] = "k" ∧ Text.lossy [0x61] = "a" := by decide +kernel
    rw [own, texts.1, texts.2] at member
    exact member

end TupleWire
