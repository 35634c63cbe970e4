import GigBoard.Json
import GigBoard.Page

/-!
# Answers in pages

One page of a list together with the number of all rows and of all pages.
-/

set_option autoImplicit false

namespace GigBoard

structure Listing (α : Type) where
  data : List α
  total : Int
  page : Int
  totalPages : Int

namespace Listing

def make {α : Type} (data : List α) (total : Int) (page : Page) :
    Except ArithmeticFault (Listing α) :=
  (page.totalPages total).map fun pages => ⟨data, total, page.page, pages⟩

def toJson {α : Type} (item : α → Json) (l : Listing α) : Json :=
  .object [("data", .array (l.data.map item)), ("total", .integer l.total),
    ("page", .integer l.page), ("totalPages", .integer l.totalPages)]

end Listing

end GigBoard
