import WordMachine.Proofs.CommandLine.Parsing

set_option autoImplicit false

/-! # Numbers in options

Arguments are read setting by setting, and each setting is checked as it is read. So the size of the
memory and the budget can be written as they were read, and no range ends before it starts,
whatever was asked for (`Options.checked_of_parse`). -/

namespace WordMachine.CommandLine

/-- What is checked of a single setting. -/
def Setting.Checked : Setting → Prop
  | memorySize size => ∀ cells ∈ size, Decimal.isWritable cells = true
  | budget count => Decimal.isWritable count = true
  | dump range => ∀ shown ∈ range, shown.1 ≤ shown.2
  | _ => True

/-- What holds of the numbers that arguments ask for. -/
structure Options.Checked (o : Options) : Prop where
  memorySize : ∀ size ∈ o.memorySize, Decimal.isWritable size = true
  maxSteps : Decimal.isWritable o.maxSteps = true
  dump : ∀ range ∈ o.dump, range.1 ≤ range.2

variable {arguments : List String} {settings : List Setting} {o : Options} {s : Switch}
  {given : Given} {x : Setting}

theorem isWritable_of_isDecimal {text : List Char} {n : Int} (h : IsDecimal text n) :
    Decimal.isWritable n = true :=
  Numeral.isWritable_of_read (Numeral.read_eq_ok_iff.2 h)

theorem Means.checked (h : Means s given x) : x.Checked := by
  cases h with
  | dump h hle =>
    intro shown hshown
    cases hshown
    exact hle
  | maxSteps h => exact isWritable_of_isDecimal h
  | maxStepsEmpty => exact (by decide : Decimal.isWritable 0 = true)
  | memorySize h =>
    intro cells hcells
    cases hcells
    exact isWritable_of_isDecimal h
  | dumpEmpty | memorySizeEmpty =>
    intro _ hnone
    cases hnone
  | _ => trivial

theorem checked_of_means {switches : List Switch}
    (h : List.Forall₂ (fun t x => Means t .alone x) switches settings) :
    ∀ x ∈ settings, x.Checked := by
  induction h with
  | nil => simp
  | cons hx _ ih => exact List.forall_mem_cons.2 ⟨hx.checked, ih⟩

theorem Asks.checked (h : Asks arguments settings) : ∀ x ∈ settings, x.Checked := by
  induction h with
  | nil => simp
  | program _ _ ih => exact List.forall_mem_cons.2 ⟨trivial, ih⟩
  | marked | ended => exact List.forall_mem_singleton.2 trivial
  | value _ _ hx _ ih | joined _ _ hx _ ih | empty _ hx _ ih | alone _ hx _ ih =>
    exact List.forall_mem_cons.2 ⟨hx.checked, ih⟩
  | bundle _ _ _ hxs _ ih =>
    exact List.forall_mem_append.2 ⟨checked_of_means hxs, ih⟩

/-- Putting in a checked setting keeps options checked. -/
theorem Options.Checked.put (ho : o.Checked) (hx : x.Checked) : (o.put x).Checked := by
  cases x with
  | memorySize size => exact ⟨hx, ho.maxSteps, ho.dump⟩
  | budget count => exact ⟨ho.memorySize, hx, ho.dump⟩
  | dump range => exact ⟨ho.memorySize, ho.maxSteps, hx⟩
  | _ => exact ⟨ho.memorySize, ho.maxSteps, ho.dump⟩

theorem Options.Checked.foldl_put (ho : o.Checked) (hsettings : ∀ x ∈ settings, x.Checked) :
    (settings.foldl Options.put o).Checked := by
  induction settings generalizing o with
  | nil => exact ho
  | cons x rest ih =>
    obtain ⟨hx, hrest⟩ := List.forall_mem_cons.1 hsettings
    exact ih (ho.put hx) hrest

/-- The size of the memory and the budget that arguments ask for can be written in decimal, and no
    range ends before it starts. -/
theorem Options.checked_of_parse (h : Options.parse arguments = .ok o) : o.Checked := by
  obtain ⟨settings, hasks, hprogram, ho⟩ := parse_eq_ok_iff.1 h
  have hdefault : Checked { program := "" } := by
    refine ⟨fun size hsize => ?_, by decide, by simp⟩
    cases hsize
    decide
  have hall := hdefault.foldl_put hasks.checked
  rw [CommandLine.foldl_put, hprogram] at hall
  rw [ho]
  exact hall

theorem Options.isWritable_memorySize {size : Int} (h : Options.parse arguments = .ok o)
    (hsize : o.memorySize = some size) : Decimal.isWritable size = true :=
  (checked_of_parse h).memorySize size hsize

end WordMachine.CommandLine
