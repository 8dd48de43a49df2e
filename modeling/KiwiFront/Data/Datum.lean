/-!
# Serialized data

A datum is a value of the data formats: nothing, an integer, a text, a list, or an
object whose keys keep their order.
-/

namespace KiwiFront

/-- A value that a data format can write. -/
inductive Datum where
  | null
  | integer (value : Int)
  | text (value : String)
  | list (items : List Datum)
  | object (fields : List (String × Datum))

end KiwiFront
