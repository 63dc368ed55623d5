import Mathlib
import DocOutline.Disk.Basic

/-!
# What a disk holds

The item at each place after something was put there, taken away or cleared, and what lies directly in a folder. On a
proper disk no place is listed twice, and all changes keep it proper.
-/

namespace DocOutline.Disk

variable {disk : Disk} {place other folder : Place} {item : Item}

@[simp]
theorem item?_nil : disk.item? [] = some .folder := if_pos rfl

theorem item?_of_ne_nil (h : place ≠ []) : disk.item? place = disk.items.lookup place := if_neg h

/-- Looking up is finding the first entry of a list with a key. -/
theorem lookup_filter {α β : Type} [BEq α] [LawfulBEq α] (keeps : α → Bool) (entries : List (α × β)) (key : α) :
    (entries.filter fun entry => keeps entry.1).lookup key = if keeps key then entries.lookup key else none := by
  induction entries with
  | nil => simp
  | cons entry entries ih =>
    obtain ⟨name, value⟩ := entry
    by_cases hkey : key = name
    · subst hkey
      by_cases hkeep : keeps key <;> simp [hkeep, ih]
    · have hbeq : (key == name) = false := beq_eq_false_iff_ne.mpr hkey
      by_cases hkeep : keeps name <;> simp [hkeep, List.lookup_cons, hbeq, ih]

theorem item?_put (h : place ≠ []) : (disk.put place item).item? place = some item := by
  rw [item?_of_ne_nil h, put, List.lookup_cons, BEq.rfl]

theorem item?_drop_self (h : place ≠ []) : (disk.drop place).item? place = none := by
  rw [item?_of_ne_nil h, drop, lookup_filter (· != place)]
  simp

theorem item?_drop (h : other ≠ place) : (disk.drop place).item? other = disk.item? other := by
  unfold item?
  split
  · rfl
  · rw [drop, lookup_filter (· != place), if_pos (bne_iff_ne.mpr h)]

theorem item?_put_of_ne (h : other ≠ place) : (disk.put place item).item? other = disk.item? other := by
  have hdrop : (disk.drop place).item? other = disk.item? other := item?_drop h
  rw [← hdrop]
  unfold item?
  rw [put, drop, List.lookup_cons, beq_eq_false_iff_ne.mpr h]

theorem item?_clear (folder place : Place) :
    (disk.clear folder).item? place = if isBelow folder place then none else disk.item? place := by
  unfold item?
  rw [clear, lookup_filter (!isBelow folder ·)]
  by_cases hroot : place = []
  · simp [hroot, isBelow]
  · cases isBelow folder place <;> simp [hroot]

theorem isBelow_iff : isBelow folder place = true ↔ ∃ name names, place = folder ++ name :: names := by
  rw [isBelow, Bool.and_eq_true, List.isPrefixOf_iff_prefix, decide_eq_true_eq]
  constructor
  · rintro ⟨⟨rest, rfl⟩, hlength⟩
    cases rest with
    | nil => simp at hlength
    | cons name names => exact ⟨name, names, rfl⟩
  · rintro ⟨name, names, rfl⟩
    exact ⟨List.prefix_append _ _, by simp⟩

/-! ## Proper disks -/

/-- Whether no place is listed twice. -/
def IsProper (disk : Disk) : Prop := (disk.items.map Prod.fst).Nodup

instance (disk : Disk) : Decidable disk.IsProper := inferInstanceAs (Decidable (List.Nodup _))

theorem IsProper.filter (h : disk.IsProper) (keeps : Place × Item → Bool) :
    IsProper ⟨disk.items.filter keeps⟩ := List.Nodup.sublist (List.filter_sublist.map _) h

theorem IsProper.drop (h : disk.IsProper) (place : Place) : (disk.drop place).IsProper := h.filter _

theorem IsProper.clear (h : disk.IsProper) (folder : Place) : (disk.clear folder).IsProper := h.filter _

theorem IsProper.put (h : disk.IsProper) (place : Place) (item : Item) : (disk.put place item).IsProper := by
  refine List.nodup_cons.mpr ⟨?_, h.filter _⟩
  simp [List.mem_map]

/-! ## Names in a folder -/

def onlyName? : List String → Option String
  | [name] => some name
  | _ => none

def namesBelow (disk : Disk) (folder : Place) : List String :=
  (disk.below folder).filterMap fun (parts, _) => onlyName? parts

def nameIn? (folder place : Place) : Option String :=
  if isBelow folder place then onlyName? (place.drop folder.length) else none

theorem onlyName?_eq_some {names : List String} {name : String} : onlyName? names = some name ↔ names = [name] := by
  unfold onlyName?
  split <;> simp_all

theorem nameIn?_eq_some {name : String} : nameIn? folder place = some name ↔ place = folder ++ [name] := by
  unfold nameIn?
  constructor
  · intro h
    split at h
    · next hbelow =>
      obtain ⟨first, names, rfl⟩ := isBelow_iff.mp hbelow
      rw [List.drop_left] at h
      rw [onlyName?_eq_some.mp h]
    · cases h
  · rintro rfl
    rw [if_pos (isBelow_iff.mpr ⟨name, [], rfl⟩), List.drop_left]
    rfl

theorem namesBelow_eq (disk : Disk) (folder : Place) :
    disk.namesBelow folder = (disk.items.map Prod.fst).filterMap (nameIn? folder) := by
  rw [namesBelow, below, List.filterMap_map, List.filterMap_filter, List.filterMap_map]
  rfl

theorem lookup_ne_none {α β : Type} [BEq α] [LawfulBEq α] {entries : List (α × β)} {key : α} :
    entries.lookup key ≠ none ↔ key ∈ entries.map Prod.fst := by
  induction entries with
  | nil => simp
  | cons entry entries ih =>
    rw [List.lookup_cons, List.map_cons, List.mem_cons, ← ih]
    by_cases hkey : key = entry.1
    · simp [hkey]
    · simp [beq_eq_false_iff_ne.mpr hkey, hkey]

theorem mem_namesBelow {name : String} :
    name ∈ disk.namesBelow folder ↔ disk.item? (folder ++ [name]) ≠ none := by
  rw [namesBelow_eq, List.mem_filterMap, item?_of_ne_nil (by simp), lookup_ne_none]
  constructor
  · rintro ⟨place, hplace, hname⟩
    exact nameIn?_eq_some.mp hname ▸ hplace
  · intro h
    exact ⟨_, h, nameIn?_eq_some.mpr rfl⟩

theorem nodup_namesBelow (h : disk.IsProper) (folder : Place) : (disk.namesBelow folder).Nodup := by
  rw [namesBelow_eq]
  refine List.Nodup.filterMap ?_ h
  intro place place' name hname hname'
  rw [nameIn?_eq_some.mp hname, nameIn?_eq_some.mp hname']

end DocOutline.Disk
