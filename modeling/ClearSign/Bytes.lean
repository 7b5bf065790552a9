namespace ClearSign

abbrev Bytes := List UInt8

namespace Bytes

/-- The buffer after `written` was copied to its front; what lies behind stays as it was. -/
def overwrite (buffer written : Bytes) : Bytes :=
  written ++ buffer.drop written.length

theorem take_overwrite (buffer written : Bytes) :
    (overwrite buffer written).take written.length = written := by
  simp [overwrite]

theorem drop_overwrite (buffer written : Bytes) :
    (overwrite buffer written).drop written.length = buffer.drop written.length := by
  simp [overwrite]

theorem length_overwrite {buffer written : Bytes} (fits : written.length ≤ buffer.length) :
    (overwrite buffer written).length = buffer.length := by
  simp [overwrite]
  omega

theorem set_append_cons (front back : Bytes) (x b : UInt8) :
    (front ++ x :: back).set front.length b = front ++ b :: back := by
  simp

end Bytes

end ClearSign
