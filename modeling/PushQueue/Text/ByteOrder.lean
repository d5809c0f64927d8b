/-! Texts compared byte by byte in their UTF-8 form. -/

namespace PushQueue.Text

def utf8 (s : String) : List UInt8 := s.toByteArray.data.toList

theorem utf8_inj {s t : String} : utf8 s = utf8 t ↔ s = t := by
  refine ⟨fun h => ?_, fun h => h ▸ rfl⟩
  have hdata : s.toByteArray.data = t.toByteArray.data := Array.ext' h
  exact String.toByteArray_inj.1 (ByteArray.ext hdata)

def compareBytes : String → String → Ordering := compareOn utf8

instance : Std.TransCmp compareBytes := inferInstanceAs (Std.TransCmp (compareOn utf8))

instance : Std.LawfulEqCmp compareBytes where
  compare_self {_} := Std.ReflCmp.compare_self
  eq_of_compare {s t} h := by
    have hb : compare (utf8 s) (utf8 t) = .eq := h
    exact utf8_inj.1 (Std.LawfulEqCmp.eq_of_compare hb)

end PushQueue.Text
