import Descent.Command.Response

/-! Texts without surrogates, and their bytes in UTF-8. -/

namespace Descent

theorem CodePoint.toChar?_ofChar (c : Char) : (ofChar c).toChar? = some c := by
  rw [toChar?, dif_pos (show (ofChar c).value.isValidChar from c.valid)]
  rfl

namespace Text

theorem toString_ofString (s : String) : (ofString s).toString = s := by
  have kept : (fun c => (CodePoint.ofChar c).toChar?.getD '\uFFFD') = id := by
    funext c
    rw [CodePoint.toChar?_ofChar]
    rfl
  rw [toString, ofString, List.map_map, Function.comp_def, kept, List.map_id]
  exact String.ofList_toList

def Encodable (t : Text) : Prop := ∃ s : String, ofString s = t

theorem encodable_iff (t : Text) : t.Encodable ↔ ∀ c ∈ t, ∃ x : Char, (x : CodePoint) = c := by
  constructor
  · rintro ⟨s, rfl⟩ c member
    obtain ⟨x, _, same⟩ := List.mem_map.mp member
    exact ⟨x, same⟩
  · intro characters
    induction t with
    | nil => exact ⟨"", rfl⟩
    | cons c t ih =>
        obtain ⟨x, rfl⟩ := characters c List.mem_cons_self
        obtain ⟨s, rfl⟩ := ih fun c member => characters c (List.mem_cons_of_mem _ member)
        refine ⟨String.ofList (x :: s.toList), ?_⟩
        rw [ofString, String.toList_ofList]
        rfl

theorem mem_of_mem_unifyNewlines {t : Text} {c : CodePoint} (member : c ∈ t.unifyNewlines) :
    c ∈ t ∨ c = '\n' := by
  obtain ⟨⟨d, previous⟩, kept, same⟩ := List.mem_map.mp member
  change (if d = CodePoint.carriageReturn then CodePoint.newline else d) = c at same
  have inside : d ∈ t := (List.of_mem_zip (List.mem_filter.mp kept).1).1
  by_cases carriage : d = CodePoint.carriageReturn
  · rw [if_pos carriage] at same
    exact .inr same.symm
  · rw [if_neg carriage] at same
    exact .inl (same ▸ inside)

end Text

namespace Command

theorem decode_toUTF8 (s : String) : decode s.toUTF8 = .ok (Text.ofString s).unifyNewlines := by
  have read : String.fromUTF8? s.toUTF8 = some s := dif_pos s.isValidUTF8
  rw [decode, read]

theorem encode_ofString (s : String) : encode (Text.ofString s) = s.toUTF8 := by
  rw [encode, Text.toString_ofString]

theorem encodable_of_decode {bytes : ByteArray} {input : Text}
    (decoded : decode bytes = .ok input) : input.Encodable := by
  rw [decode] at decoded
  split at decoded
  · rename_i s _
    cases decoded
    rw [Text.encodable_iff]
    intro c member
    rcases Text.mem_of_mem_unifyNewlines member with inside | rfl
    · exact (Text.encodable_iff _).mp ⟨s, rfl⟩ c inside
    · exact ⟨'\n', rfl⟩
  · cases decoded

end Command

end Descent
