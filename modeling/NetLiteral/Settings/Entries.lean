/-!
# Entries

Texts by key, with at most one text for each key. Of several texts for one key the last one counts.
-/

namespace NetLiteral

/-- A list of keys and texts in which no key comes twice. -/
structure Entries where
  toList : List (String × String)
  nodup_keys : (toList.map Prod.fst).Nodup
  deriving DecidableEq, Repr

namespace Entries

def lastOfEach : List (String × String) → List (String × String)
  | [] => []
  | e :: es => if e.1 ∈ es.map Prod.fst then lastOfEach es else e :: lastOfEach es

theorem mem_keys_lastOfEach (es : List (String × String)) (key : String) :
    key ∈ (lastOfEach es).map Prod.fst ↔ key ∈ es.map Prod.fst := by
  induction es with
  | nil => rfl
  | cons e es ih =>
    simp only [lastOfEach]
    split
    next h =>
      rw [ih, List.map_cons, List.mem_cons]
      exact ⟨Or.inr, fun hk => hk.elim (fun he => he ▸ h) id⟩
    next h => rw [List.map_cons, List.map_cons, List.mem_cons, List.mem_cons, ih]

theorem nodup_keys_lastOfEach (es : List (String × String)) :
    ((lastOfEach es).map Prod.fst).Nodup := by
  induction es with
  | nil => exact List.nodup_nil
  | cons e es ih =>
    simp only [lastOfEach]
    split
    next h => exact ih
    next h =>
      rw [List.map_cons, List.nodup_cons]
      exact ⟨fun he => h ((mem_keys_lastOfEach es e.1).mp he), ih⟩

def ofList (es : List (String × String)) : Entries :=
  ⟨lastOfEach es, nodup_keys_lastOfEach es⟩

def get? (es : Entries) (key : String) : Option String :=
  es.toList.lookup key

end Entries

end NetLiteral
