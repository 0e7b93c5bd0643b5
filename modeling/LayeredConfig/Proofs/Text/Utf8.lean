import LayeredConfig.Text.Utf8

/-! # Bytes of a text

The bytes of a text are well-formed and stand for that text. -/

namespace LayeredConfig.Text

theorem toList_loop_eq (bytes : ByteArray) (start : Nat) (passed : List UInt8) :
    ByteArray.toList.loop bytes start passed = passed.reverse ++ bytes.data.toList.drop start := by
  induction start, passed using ByteArray.toList.loop.induct bytes with
  | case1 start passed hlt ih =>
      have hstart : start < bytes.data.toList.length := hlt
      have hget : bytes.get! start = bytes.data.toList[start] := by
        rw [ByteArray.get!, getElem!_pos bytes.data start hlt, Array.getElem_toList]
      rw [ByteArray.toList.loop, if_pos hlt, ih, List.drop_eq_getElem_cons hstart, hget,
        List.reverse_cons, List.append_assoc]
      rfl
  | case2 start passed hge =>
      have hend : bytes.data.toList.length ≤ start := Nat.le_of_not_lt hge
      rw [ByteArray.toList.loop, if_neg hge, List.drop_eq_nil_of_le hend, List.append_nil]

theorem ofBytes?_toBytes (text : String) : ofBytes? (toBytes text) = some text := by
  have hbytes : toBytes text = text.toByteArray.data.toList := toList_loop_eq _ 0 []
  have hvalid : text.toByteArray.IsValidUTF8 := text.isValidUTF8
  rw [ofBytes?, hbytes, Array.toArray_toList, String.fromUTF8?, dif_pos hvalid]
  rfl

end LayeredConfig.Text
