namespace Calque

def bytes (text : List Char) : List UInt8 := text.flatMap String.utf8EncodeChar

def width : List Char → Nat
  | [] => 0
  | c :: text => c.utf8Size + width text

@[simp] theorem bytes_nil : bytes [] = [] := rfl

@[simp] theorem bytes_cons (c : Char) (text : List Char) :
    bytes (c :: text) = String.utf8EncodeChar c ++ bytes text := rfl

theorem bytes_append (a b : List Char) : bytes (a ++ b) = bytes a ++ bytes b :=
  List.flatMap_append

@[simp] theorem width_nil : width [] = 0 := rfl

@[simp] theorem width_cons (c : Char) (text : List Char) :
    width (c :: text) = c.utf8Size + width text := rfl

@[simp] theorem width_append (a b : List Char) : width (a ++ b) = width a + width b := by
  induction a with
  | nil => simp
  | cons c a ih => simp [ih, Nat.add_assoc]

@[simp] theorem length_bytes (text : List Char) : (bytes text).length = width text := by
  induction text with
  | nil => rfl
  | cons c text ih => simp [ih]

end Calque
