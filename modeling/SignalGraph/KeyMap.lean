namespace SignalGraph

/-- Entries in strictly ascending order of their keys, so that each key stands once. -/
structure KeyMap (β : Type) where
  entries : List (String × β)
  sorted : entries.Pairwise (fun a b => compare a.1 b.1 = .lt) := by simp

namespace KeyMap

variable {β : Type}

/-- Puts an entry at its place, in the stead of one with the same key. -/
def insertEntry (key : String) (value : β) : List (String × β) → List (String × β)
  | [] => [(key, value)]
  | e :: es =>
    match compare key e.1 with
    | .lt => (key, value) :: e :: es
    | .eq => (key, value) :: es
    | .gt => e :: insertEntry key value es

theorem mem_insertEntry {key : String} {value : β} {e : String × β} {es : List (String × β)}
    (h : e ∈ insertEntry key value es) : e.1 = key ∨ e ∈ es := by
  induction es with
  | nil => simp [insertEntry] at h; simp [h]
  | cons d ds ih =>
    simp only [insertEntry] at h
    split at h
    · rcases List.mem_cons.1 h with h | h
      · exact .inl (by simp [h])
      · exact .inr h
    · rcases List.mem_cons.1 h with h | h
      · exact .inl (by simp [h])
      · exact .inr (List.mem_cons_of_mem _ h)
    · rcases List.mem_cons.1 h with h | h
      · exact .inr (by simp [h])
      · exact (ih h).imp id (List.mem_cons_of_mem _)

theorem sorted_insertEntry {key : String} {value : β} {es : List (String × β)}
    (h : es.Pairwise (fun a b => compare a.1 b.1 = .lt)) :
    (insertEntry key value es).Pairwise (fun a b => compare a.1 b.1 = .lt) := by
  induction es with
  | nil => simp [insertEntry]
  | cons d ds ih =>
    obtain ⟨hd, ht⟩ := List.pairwise_cons.1 h
    simp only [insertEntry]
    split
    · rename_i hlt
      refine List.pairwise_cons.2 ⟨fun b hb => ?_, h⟩
      rcases List.mem_cons.1 hb with rfl | hb
      · exact hlt
      · exact Std.TransCmp.lt_trans hlt (hd b hb)
    · rename_i heq
      have he : key = d.1 := Std.LawfulEqCmp.eq_of_compare heq
      exact List.pairwise_cons.2 ⟨fun b hb => he ▸ hd b hb, ht⟩
    · rename_i hgt
      refine List.pairwise_cons.2 ⟨fun b hb => ?_, ih ht⟩
      rcases mem_insertEntry hb with he | hb
      · rw [he]
        exact Std.OrientedCmp.gt_iff_lt.1 hgt
      · exact hd b hb

def empty : KeyMap β := ⟨[], .nil⟩

instance : Inhabited (KeyMap β) := ⟨empty⟩

def insert (m : KeyMap β) (key : String) (value : β) : KeyMap β :=
  ⟨insertEntry key value m.entries, sorted_insertEntry m.sorted⟩

def get? (m : KeyMap β) (key : String) : Option β := m.entries.lookup key

def contains (m : KeyMap β) (key : String) : Bool := (m.get? key).isSome

def keys (m : KeyMap β) : List String := m.entries.map (·.1)

def size (m : KeyMap β) : Nat := m.entries.length

def isEmpty (m : KeyMap β) : Bool := m.entries.isEmpty

/-- The entries of a list, a later one winning over an earlier one with its key. -/
def ofList (es : List (String × β)) : KeyMap β :=
  es.foldl (fun m e => m.insert e.1 e.2) empty

theorem lookup_cons_ite (e : String × β) (es : List (String × β)) (key : String) :
    (e :: es).lookup key = if key = e.1 then some e.2 else es.lookup key := by
  obtain ⟨k, v⟩ := e
  by_cases h : key = k
  · simp [h]
  · have hb : (key == k) = false := by simpa using h
    simp [List.lookup_cons, hb, h]

theorem lookup_insertEntry (key other : String) (value : β) (es : List (String × β)) :
    (insertEntry key value es).lookup other =
      if other = key then some value else es.lookup other := by
  induction es with
  | nil => simp [insertEntry, lookup_cons_ite]
  | cons d ds ih =>
    simp only [insertEntry]
    split
    · rw [lookup_cons_ite]
    · rename_i heq
      have he : key = d.1 := Std.LawfulEqCmp.eq_of_compare heq
      rw [lookup_cons_ite, lookup_cons_ite]
      by_cases h : other = key
      · simp [h]
      · simp [h, show ¬ other = d.1 from he ▸ h]
    · rename_i hgt
      rw [lookup_cons_ite, lookup_cons_ite, ih]
      by_cases hd : other = d.1
      · have hne : ¬ other = key := by
          rintro rfl
          rw [hd] at hgt
          simp at hgt
        simp [hd, hd ▸ hne]
      · simp [hd]

@[simp] theorem get?_empty (key : String) : (empty : KeyMap β).get? key = none := rfl

@[simp] theorem get?_insert (m : KeyMap β) (key other : String) (value : β) :
    (m.insert key value).get? other = if other = key then some value else m.get? other :=
  lookup_insertEntry key other value m.entries

end KeyMap

end SignalGraph
