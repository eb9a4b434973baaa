namespace ImportAtlas.Fresh

variable {α : Type} [DecidableEq α]

def without (visited : α) (fresh : List α) : List α := fresh.filter (· ≠ visited)

@[simp] theorem mem_without {visited a : α} {fresh : List α} :
    a ∈ without visited fresh ↔ a ∈ fresh ∧ a ≠ visited := by
  simp [without]

theorem length_without_lt {visited : α} {fresh : List α} (h : visited ∈ fresh) :
    (without visited fresh).length < fresh.length :=
  List.length_filter_lt_length_iff_exists.2 ⟨visited, h, by simp⟩

end ImportAtlas.Fresh
