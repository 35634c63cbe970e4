import GigBoard.Text.LowerCase
import GigBoard.Url.Host
import GigBoard.Url.Punycode

/-!
# Domains without the tables of Unicode

UTS 46 brings domains into ASCII form by tables of Unicode.  Some domains need none of them: those of
ASCII characters and of letters for which lower case is all that there is to do, without labels in
Punycode already.  `simpleToAscii` converts these as UTS 46 says, and refuses all others.  It is what
the program runs with; what is proved of URLs holds for other conversions as well.
-/

set_option autoImplicit false

namespace GigBoard.Url

def isForbiddenInDomain (b : UInt8) : Bool :=
  let c := Char.ofNat b.toNat
  isControl c || c = '%' || forbiddenInHost.contains c

/-- Code points of letters that are kept in domains, or have a lower-case form that is: Latin-1, Greek
and Cyrillic, kana, Han and Hangul. -/
def letterRanges : List (Nat × Nat) :=
  [(0xC0, 0xD6), (0xD8, 0xF6), (0xF8, 0xFF), (0x391, 0x3A1), (0x3A3, 0x3A9), (0x3AC, 0x3CE),
    (0x400, 0x45F), (0x3041, 0x3096), (0x30A1, 0x30FA), (0x4E00, 0x9FA5), (0xAC00, 0xD7A3)]

/-- Whether lower case is all that there is to do about a character. -/
def isSimple (c : Char) : Bool :=
  c.toNat < 0x80 || Text.LowerCase.inRanges letterRanges c.toNat

def simpleToAscii : ToAscii := fun octets =>
  if octets.any isForbiddenInDomain then none
  else
    (Text.Utf8.decode? octets).bind fun cs =>
      -- Each character by itself: a final sigma is no other letter here.
      let labels := Text.splitAt '.' (cs.flatMap Text.LowerCase.ofChar)
      if cs.all isSimple && labels.all fun label => !"xn--".toList.isPrefixOf label then
        some (List.intercalate ['.'] (labels.map Punycode.encode))
      else none

end GigBoard.Url
