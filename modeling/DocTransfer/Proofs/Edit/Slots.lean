import DocTransfer.Proofs.Edit.Semantics

/-! # Independent edits commute

A text with slots, and an edit for each slot. As long as the old text of every open slot occurs
nowhere else, however many of the other slots have been filled, each edit finds its own slot. The
order in which the edits come then makes no difference. -/

namespace DocTransfer.Transfer

open Text

/-- A place in a text: what stands there, what is to stand there, and what follows up to the next
such place. -/
structure Slot where
  old : String
  new : String
  gap : List Char

/-- The edit that fills a slot. -/
def Slot.edit (slot : Slot) : Edit where
  old := some slot.old
  new := some slot.new

/-- What stands in a slot that is filled or still open. -/
def Slot.text (slot : Slot) (filled : Bool) : List Char :=
  if filled then slot.new.toList else slot.old.toList

/-- A text that begins like this and goes on with slots, each marked as filled or open. -/
def layout (first : List Char) (row : List (Slot × Bool)) : List Char :=
  first ++ row.flatMap fun (slot, filled) => slot.text filled ++ slot.gap

/-- The open slots of a row. -/
def openSlots (row : List (Slot × Bool)) : List Slot :=
  (row.filter fun (_, filled) => !filled).map Prod.fst

theorem layout_append_cons (first : List Char) (earlier later : List (Slot × Bool)) (slot : Slot)
    (filled : Bool) :
    layout first (earlier ++ (slot, filled) :: later) =
      layout first earlier ++ (slot.text filled ++ layout slot.gap later) := by
  simp [layout]

theorem openSlots_open (earlier later : List (Slot × Bool)) (slot : Slot) :
    openSlots (earlier ++ (slot, false) :: later) =
      openSlots earlier ++ slot :: openSlots later := by
  simp [openSlots]

theorem openSlots_filled (earlier later : List (Slot × Bool)) (slot : Slot) :
    openSlots (earlier ++ (slot, true) :: later) = openSlots earlier ++ openSlots later := by
  simp [openSlots]

theorem mem_openSlots {row : List (Slot × Bool)} {slot : Slot} :
    slot ∈ openSlots row ↔ (slot, false) ∈ row := by
  simp [openSlots]

/-- A row without open slots is its slots, all filled. -/
theorem eq_map_of_openSlots_eq_nil {row : List (Slot × Bool)} (h : openSlots row = []) :
    row = (row.map Prod.fst).map fun slot => (slot, true) := by
  induction row with
  | nil => rfl
  | cons mark row ih =>
      obtain ⟨slot, filled⟩ := mark
      cases filled with
      | false => simp [openSlots] at h
      | true =>
          rw [List.map_cons, List.map_cons, ← ih (by simpa [openSlots] using h)]

/-- Slots whose edits do not get into each other's way: every edit has something to do, and whatever
slots are filled, the old text of an open one begins in one place only. -/
structure Independent (first : List Char) (slots : List Slot) : Prop where
  nonempty : ∀ slot ∈ slots, slot.old ≠ ""
  differ : ∀ slot ∈ slots, slot.old ≠ slot.new
  once : ∀ row, row.map Prod.fst = slots → ∀ slot, (slot, false) ∈ row →
    occurrences slot.old.toList (layout first row) = 1

namespace Independent

variable {first : List Char} {slots : List Slot}

/-- The edit of an open slot fills this slot. -/
theorem replaces (h : Independent first slots) {earlier later : List (Slot × Bool)} {slot : Slot}
    (hrow : (earlier ++ (slot, false) :: later).map Prod.fst = slots) :
    slot.edit.Replaces (layout first (earlier ++ (slot, false) :: later))
      (layout first (earlier ++ (slot, true) :: later)) := by
  have hslot : slot ∈ slots := by simp [← hrow]
  have honce := h.once _ hrow slot (by simp)
  have hfirst := firstOccurrence_of_occurrences_eq_one honce (layout_append_cons ..)
  rw [layout_append_cons first earlier later slot true, ← List.append_assoc]
  exact .first (h.nonempty slot hslot) (h.differ slot hslot) hfirst

/-- The edits of the open slots, in whatever order, fill all of these and are all applied. -/
theorem patch_layout (h : Independent first slots) {edits : List Edit}
    {row : List (Slot × Bool)} (hrow : row.map Prod.fst = slots)
    (hperm : edits.Perm ((openSlots row).map Slot.edit)) :
    patch edits (layout first row) =
      { code := layout first (slots.map fun slot => (slot, true)), applied := edits.length } := by
  induction edits generalizing row with
  | nil =>
      have hopen : openSlots row = [] := List.map_eq_nil_iff.mp hperm.nil_eq.symm
      rw [← hrow, ← eq_map_of_openSlots_eq_nil hopen]
      rfl
  | cons e edits ih =>
      have he : e ∈ (openSlots row).map Slot.edit := hperm.mem_iff.mp List.mem_cons_self
      obtain ⟨slot, hslot, rfl⟩ := List.mem_map.mp he
      obtain ⟨earlier, later, rfl⟩ := List.append_of_mem (mem_openSlots.mp hslot)
      have hrow' : (earlier ++ (slot, true) :: later).map Prod.fst = slots := by
        simpa using hrow
      have hperm' : edits.Perm
          ((openSlots (earlier ++ (slot, true) :: later)).map Slot.edit) := by
        rw [openSlots_open, List.map_append, List.map_cons] at hperm
        rw [openSlots_filled, List.map_append]
        exact (hperm.trans List.perm_middle).cons_inv
      rw [patch_cons_of_replaces (h.replaces hrow), ih hrow' hperm', List.length_cons]

end Independent

/-- Independent edits fill their slots in any order: each is applied, none is skipped, and the text
is always the same. -/
theorem patch_perm_of_independent (first : List Char) (slots : List Slot) (edits : List Edit)
    (h : Independent first slots) (hperm : edits.Perm (slots.map Slot.edit)) :
    patch edits (first ++ slots.flatMap fun slot => slot.old.toList ++ slot.gap) =
      { code := first ++ slots.flatMap fun slot => slot.new.toList ++ slot.gap
        applied := slots.length
        skipped := 0 } := by
  have hplain : layout first (slots.map fun slot => (slot, false)) =
      first ++ slots.flatMap fun slot => slot.old.toList ++ slot.gap := by
    simp [layout, Slot.text, List.flatMap_map]
  have hfilled : layout first (slots.map fun slot => (slot, true)) =
      first ++ slots.flatMap fun slot => slot.new.toList ++ slot.gap := by
    simp [layout, Slot.text, List.flatMap_map]
  have hopen : openSlots (slots.map fun slot => (slot, false)) = slots := by
    simp [openSlots, List.filter_map, Function.comp_def]
  have hlength : edits.length = slots.length := by
    simpa using hperm.length_eq
  rw [← hplain, ← hfilled, ← hlength]
  exact h.patch_layout (by simp [Function.comp_def]) (by rwa [hopen])

/-- Two fields of a class, each to be documented. -/
def xField : Slot := ⟨"int x;", "/** Across. */\nint x;", ['\n']⟩

def yField : Slot := ⟨"int y;", "/** Up, as x is across. */\nint y;", "\n\x7d".toList⟩

theorem independent_fields : Independent "class P \x7b\n".toList [xField, yField] where
  nonempty := by decide
  differ := by decide
  once := by
    have hrows : ∀ filled filled', ∀ mark ∈ [(xField, filled), (yField, filled')],
        mark.2 = false →
          occurrences mark.1.old.toList
            (layout "class P \x7b\n".toList [(xField, filled), (yField, filled')]) = 1 := by
      decide +kernel
    intro row hrow slot hslot
    obtain ⟨⟨_, filled⟩, rest, rfl, rfl, hrest⟩ := List.map_eq_cons_iff.mp hrow
    obtain ⟨⟨_, filled'⟩, rest', rfl, rfl, hrest'⟩ := List.map_eq_cons_iff.mp hrest
    obtain rfl := List.map_eq_nil_iff.mp hrest'
    exact hrows filled filled' (slot, false) hslot rfl

theorem patch_perm_of_independent_fields :
    Independent "class P \x7b\n".toList [xField, yField] ∧
    [yField.edit, xField.edit].Perm ([xField, yField].map Slot.edit) ∧
    patch [yField.edit, xField.edit] "class P \x7b\nint x;\nint y;\n\x7d".toList =
      { code :=
          "class P \x7b\n/** Across. */\nint x;\n/** Up, as x is across. */\nint y;\n\x7d".toList
        applied := 2
        skipped := 0 } := by
  have hsource : "class P \x7b\nint x;\nint y;\n\x7d".toList =
      "class P \x7b\n".toList ++
        [xField, yField].flatMap fun slot => slot.old.toList ++ slot.gap := by decide +kernel
  have hresult :
      "class P \x7b\n/** Across. */\nint x;\n/** Up, as x is across. */\nint y;\n\x7d".toList =
        "class P \x7b\n".toList ++
          [xField, yField].flatMap fun slot => slot.new.toList ++ slot.gap := by decide +kernel
  have hperm : [yField.edit, xField.edit].Perm ([xField, yField].map Slot.edit) := .swap ..
  refine ⟨independent_fields, hperm, ?_⟩
  rw [hsource, hresult]
  exact patch_perm_of_independent _ _ _ independent_fields hperm

end DocTransfer.Transfer
