import Mathlib.Tactic

/-!
# A cell whose raw values are sealed in place

The values of a cell have a meaning, and some of them are sealed. Some writers put new sealed values,
and others replace a raw value that they have read at some time by a sealed one of the same meaning,
if the cell still has it. However these writes are mixed, the cell means what was put last, and once
it is sealed it stays so.
-/

namespace SealedCell

variable {α β : Type*}

inductive Write (α : Type*)
  | put (a : α)
  /-- Compare and set. -/
  | replace (expected a : α)

/-- The cell after a write. -/
def Write.run [DecidableEq α] (cell : Option α) : Write α → Option α
  | .put a => some a
  | .replace expected a => if cell = some expected then some a else cell

/-- The meaning that was put last. -/
def Write.lastPut (last intended : Option β) : Write α → Option β
  | .put _ => intended
  | .replace _ _ => last

variable (isSealed : α → Prop) (meaning : α → β)

/-- A write leaves a sealed value, which means what is intended, or what it replaces. -/
def Write.Sound (intended : Option β) : Write α → Prop
  | .put a => isSealed a ∧ intended = some (meaning a)
  | .replace expected a => ¬ isSealed expected ∧ isSealed a ∧ meaning a = meaning expected

/-- The meaning of the cell is that of the last put, or else of the first value. -/
structure Reads (first cell : Option α) (last : Option β) : Prop where
  meaning : cell.map meaning = last.or (first.map meaning)
  isSealed : last.isSome → ∃ a ∈ cell, isSealed a

variable {isSealed meaning}

lemma Reads.first (first : Option α) : Reads isSealed meaning first first none where
  meaning := rfl
  isSealed h := by cases h

variable [DecidableEq α]

/-- A cell that is sealed stays so. -/
lemma Write.Sound.isSealed_run {w : Write α} {intended : Option β}
    (h : w.Sound isSealed meaning intended) {cell : Option α} (hcell : ∃ a ∈ cell, isSealed a) :
    ∃ a ∈ w.run cell, isSealed a := by
  cases w with
  | put a => exact ⟨a, rfl, h.1⟩
  | replace expected a =>
    simp only [Write.run]
    split_ifs
    · exact ⟨a, rfl, h.2.1⟩
    · exact hcell

/-- Every write keeps what the cell means. -/
theorem Reads.run {first cell : Option α} {last intended : Option β} {w : Write α}
    (h : Reads isSealed meaning first cell last) (hw : w.Sound isSealed meaning intended) :
    Reads isSealed meaning first (w.run cell) (w.lastPut last intended) := by
  cases w with
  | put a =>
    obtain ⟨hsealed, hintended⟩ := hw
    refine ⟨?_, fun _ => ⟨a, rfl, hsealed⟩⟩
    show some (meaning a) = intended.or _
    rw [hintended, Option.some_or]
  | replace expected a =>
    refine ⟨?_, fun hlast => hw.isSealed_run (h.isSealed hlast)⟩
    obtain ⟨-, -, hmeaning⟩ := hw
    have hcell := h.meaning
    simp only [Write.run, Write.lastPut]
    split_ifs with hexpected
    · rw [← hcell, hexpected, Option.map_some, Option.map_some, hmeaning]
    · exact hcell

end SealedCell
