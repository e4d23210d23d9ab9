import ServiciosRed.Text

namespace ServiciosRed.MySQL

open Text

/-- What the model takes from the MySQL server: the weights of its collation,
which are only known for ASCII, where the two cases of a letter coincide, and
the text it gives to a literal in E notation. -/
class Engine where
  weight : Char → ℕ
  weight_ascii : ∀ c d : Char, c.toNat < 128 → d.toNat < 128 →
    (weight c = weight d ↔ c.toUpper = d.toUpper)
  doubleText : Texto → Texto

instance utf8GeneralCi : Engine where
  weight c := c.toUpper.toNat
  weight_ascii _ _ _ _ := Char.toNat_inj
  doubleText s := s

variable [Engine]

/-- Two texts compare equal when their weights do, trailing blanks aside. -/
def sortKey (s : Texto) : List ℕ :=
  (s.map Engine.weight).rdropWhile (fun w ↦ w = Engine.weight ' ')

end ServiciosRed.MySQL
