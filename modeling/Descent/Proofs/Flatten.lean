import Descent.Payload.Action

/-! The text of a payload is put together from left to right. -/

namespace Descent.Payload

private theorem gatherAll_append_of (items : List Payload)
    (each : ∀ item ∈ items, ∀ back, gather back item = (gather [] item).map (· ++ back))
    (back : Text) : gatherAll back items = (gatherAll [] items).map (· ++ back) := by
  induction items generalizing back with
  | nil => simp [gatherAll, Except.map]
  | cons item items ih =>
      have rest := ih fun item member => each item (List.mem_cons_of_mem _ member)
      simp only [gatherAll]
      rw [each item List.mem_cons_self back]
      cases gather [] item with
      | error fault => rfl
      | ok front =>
          change gatherAll (front ++ back) items = (gatherAll front items).map (· ++ back)
          rw [rest (front ++ back), rest front]
          cases gatherAll [] items with
          | error fault => rfl
          | ok more => simp [Except.map]

theorem gather_append (back : Text) (payload : Payload) :
    gather back payload = (gather [] payload).map (· ++ back) := by
  induction payload generalizing back with
  | text t => simp [gather, Except.map]
  | list items each => exact gatherAll_append_of items (fun item member => each item member) back
  | integer n => rfl
  | double x => rfl
  | boolean b => rfl
  | null => rfl

@[simp] theorem flatten_text (t : Text) : flatten (.text t) = .ok t := by
  simp [flatten, gather, Except.map]

@[simp] theorem flatten_nil : flatten (.list []) = .ok [] := rfl

theorem gather_of_flatten {payload : Payload} {t : Text} (flat : flatten payload = .ok t) :
    gather [] payload = .ok t.reverse := by
  rw [flatten] at flat
  cases gathered : gather [] payload with
  | error fault =>
      rw [gathered] at flat
      cases flat
  | ok back =>
      rw [gathered] at flat
      cases flat
      rw [List.reverse_reverse]

theorem gatherAll_append (gathered : Text) (front back : List Payload) :
    gatherAll gathered (front ++ back) = gatherAll gathered front >>= (gatherAll · back) := by
  induction front generalizing gathered with
  | nil => rfl
  | cons item front ih =>
      simp only [List.cons_append, gatherAll]
      cases gather gathered item with
      | error fault => rfl
      | ok more => exact ih more

theorem flatten_append {front back : List Payload} {s t : Text}
    (first : flatten (.list front) = .ok s) (rest : flatten (.list back) = .ok t) :
    flatten (.list (front ++ back)) = .ok (s ++ t) := by
  have head : gatherAll [] front = .ok s.reverse := gather_of_flatten first
  have tail : gatherAll s.reverse back = .ok (t.reverse ++ s.reverse) := by
    have whole := gather_append s.reverse (.list back)
    rw [gather_of_flatten rest] at whole
    exact whole
  have whole : gather [] (.list (front ++ back)) = .ok (t.reverse ++ s.reverse) := by
    rw [gather, gatherAll_append, head]
    exact tail
  rw [flatten, whole]
  simp [Except.map]

theorem flatten_singleton (payload : Payload) : flatten (.list [payload]) = flatten payload := by
  simp only [flatten, gather, gatherAll]
  cases gather [] payload <;> rfl

theorem flatten_cons {item : Payload} {items : List Payload} {front back : Text}
    (first : flatten item = .ok front) (rest : flatten (.list items) = .ok back) :
    flatten (.list (item :: items)) = .ok (front ++ back) :=
  flatten_append ((flatten_singleton item).trans first) rest

def characters (t : Text) : List Payload := t.map fun c => .text [c]

@[simp] theorem flatten_characters (t : Text) : flatten (.list (characters t)) = .ok t := by
  induction t with
  | nil => rfl
  | cons c t ih => exact flatten_cons (flatten_text [c]) ih

@[simp] theorem flatten_texts (pieces : List Text) :
    flatten (.list (pieces.map .text)) = .ok pieces.flatten := by
  induction pieces with
  | nil => rfl
  | cons piece pieces ih => exact flatten_cons (flatten_text piece) ih

theorem joined_of_flatten {payload : Payload} {t : Text} (flat : flatten payload = .ok t) :
    joined payload = .ok (.text t) := by
  simp [joined, flat, Except.map]

end Descent.Payload
