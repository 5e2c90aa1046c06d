import Mathlib.Data.List.Basic

/-
The last writer of a field.

Of a list of updates, `latest` is what the last one that covers a field says of it.
-/

namespace LastWriter

variable {ι α : Type} (covers : ι → Bool) (get : ι → α) (start : α)

def latest (us : List ι) : α :=
  match (us.filter covers).getLast? with
  | none => start
  | some u => get u

theorem latest_concat (us : List ι) (u : ι) :
    latest covers get start (us ++ [u]) =
      if covers u then get u else latest covers get start us := by
  rw [latest, List.filter_append]
  by_cases hu : covers u
  · rw [List.filter_cons_of_pos hu, List.filter_nil, List.getLast?_concat, if_pos hu]
  · rw [List.filter_cons_of_neg hu, List.filter_nil, List.append_nil, if_neg hu, latest]

variable {covers start}

/-- What the last update says counts when it covers the field. -/
theorem latest_of_getLast {us : List ι} {u : ι} (hlast : us.getLast? = some u)
    (hu : covers u = true) : latest covers get start us = get u := by
  obtain ⟨us', rfl⟩ := List.getLast?_eq_some_iff.mp hlast
  rw [latest_concat, if_pos hu]

end LastWriter
