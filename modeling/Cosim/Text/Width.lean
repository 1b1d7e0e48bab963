import Cosim.Text.Column
import Cosim.Text.Emoji

/-!
# Display width

How many columns of a terminal a text takes.  The columns of its characters add up, except where
characters join: pictures with selectors, skin tones and joiners, and letters of some scripts that
form one sign.  So the columns of a character depend on what stands behind it, and a text is
measured from its end.
-/

namespace Cosim.Text

/-! ## What stands behind a character -/

/-- Letters and signs that a character in front of them can join with. -/
inductive Joining where
  /-- the Arabic letter alef, which joins with lam -/
  | alef
  /-- a Hebrew lamed, and whether a joiner is in front of it -/
  | lamed (joined : Bool)
  /-- a Khmer letter, which a sign in front of it turns into a mark -/
  | khmer
  /-- a Buginese letter ya, and whether a joiner is in front of it -/
  | ya (joined : Bool)
  /-- a Buginese vowel sign and a joiner in front of the letter ya -/
  | vowelYa
  /-- a Tifinagh consonant, and whether a joiner is in front of it -/
  | tifinagh (joined : Bool)
  /-- the Tifinagh sign that joins consonants, in front of one -/
  | tifinaghJoiner
  /-- a Lisu tone letter that ends a pair -/
  | lisuTone
  /-- an Old Turkic letter i, and whether a joiner is in front of it -/
  | turkic (joined : Bool)
deriving DecidableEq

/-- What stands behind a character, as far as that matters for its columns. -/
inductive Behind where
  | other
  | lineFeed
  | skinTone
  | flagLetter
  | flagLetters
  | picture
  /-- a joiner with a picture behind it -/
  | joinedPicture
  /-- the mark of a key in front of a joiner with a picture behind it -/
  | joinedKey
  /-- one, an even and an odd number of flag letters in front of a joiner with a picture behind -/
  | joinedFlag
  | evenJoinedFlags
  | oddJoinedFlags
  /-- the Kirat Rai vowel signs e and ai, which join with signs in front of them -/
  | vowelE
  | vowelAi
  | letter (j : Joining)
deriving DecidableEq

/-- How a selector asks for the character in front of it to be shown. -/
inductive Selector where
  | picture
  | text
deriving DecidableEq

/-- What has been seen of a text from its end: a selector, and what stands behind that. -/
structure Context where
  selector : Option Selector
  behind : Behind
deriving DecidableEq

namespace Behind

/-- Whether a selector leaves what stands behind it in sight. -/
def survives (b : Behind) : Selector → Bool
  | .picture => match b with
    | .letter _ | .joinedPicture | .joinedKey => true
    | _ => false
  | .text => match b with
    | .letter _ => true
    | _ => false

/-- What stands behind a character once a selector has turned out not to be meant for it. -/
def withoutSelector : Behind → Behind
  | .letter j => .letter j
  | _ => .other

/-- Whether joiners and marks that are never shown do not come between letters that join. -/
def allowsMarks : Behind → Bool
  | .letter .alef => false
  | .letter _ => true
  | _ => false

/-- The letter with a joiner in front of it. -/
def join : Behind → Behind
  | .letter (.lamed _) => .letter (.lamed true)
  | .letter (.ya _) => .letter (.ya true)
  | .letter (.tifinagh _) => .letter (.tifinagh true)
  | .letter (.turkic _) => .letter (.turkic true)
  | b => b

end Behind

/-! ## Characters -/

def joiner : Char := '\u200d'

/-- The selectors of texts and of pictures. -/
def selector? (c : Char) : Option Selector :=
  if c == '\ufe0e' then some .text else if c == '\ufe0f' then some .picture else none

/-- Marks that are never shown and do not come between letters that join. -/
def isHiddenMark (c : Char) : Bool :=
  inRanges [(0x34f, 0x34f), (0x17b4, 0x17b5), (0x180b, 0x180d), (0x180f, 0x180f), (0x200d, 0x200d),
    (0xfe00, 0xfe0f), (0xe0100, 0xe01ef)] c

/-- The forms of the Arabic letter alef. -/
def isAlef (c : Char) : Bool :=
  inRanges [(0x622, 0x623), (0x625, 0x625), (0x627, 0x627), (0x671, 0x673), (0x675, 0x675),
    (0x773, 0x774), (0x870, 0x882)] c

/-- The forms of the Arabic letter lam. -/
def isLam (c : Char) : Bool :=
  inRanges [(0x644, 0x644), (0x6b5, 0x6b8), (0x76a, 0x76a), (0x8a6, 0x8a6), (0x8c7, 0x8c7)] c

/-- The Khmer letters that can become marks. -/
def isKhmerLetter (c : Char) : Bool :=
  inRanges [(0x1780, 0x1782), (0x1784, 0x1787), (0x1789, 0x178c), (0x178e, 0x1793),
    (0x1795, 0x1798), (0x179b, 0x179d), (0x17a0, 0x17a0), (0x17a2, 0x17a2), (0x17a7, 0x17a7),
    (0x17ab, 0x17ac), (0x17af, 0x17af)] c

def isTifinaghLetter (c : Char) : Bool := inRanges [(0x2d31, 0x2d65), (0x2d6f, 0x2d6f)] c

/-- What a character is to one in front of it. -/
def behindOf (c : Char) : Behind :=
  if c == '\u05dc' then .letter (.lamed false)
  else if isAlef c then .letter .alef
  else if isKhmerLetter c then .letter .khmer
  else if c == '\u1a10' then .letter (.ya false)
  else if isTifinaghLetter c then .letter (.tifinagh false)
  else if c == '\ua4fc' || c == '\ua4fd' then .letter .lisuTone
  else if c.toNat == 0x10c03 then .letter (.turkic false)
  else if c.toNat == 0x16d67 then .vowelE
  else if c.toNat == 0x16d68 then .vowelAi
  else if isFlagLetter c then .flagLetter
  else if isSkinTone c then .skinTone
  else if isPicture c then .picture
  else .other

/-! ## Joining -/

/-- The columns that a letter adds to those of the letter behind it, if the two join. -/
def joinLetters? (c : Char) : Joining → Option (Int × Behind)
  | .alef =>
    if isLam c then some (0, .other)
    else if isTransparent c then some (0, .letter .alef)
    else none
  | .lamed joined => if joined && c == '\u05d0' then some (0, .other) else none
  | .khmer => if c == '\u17d2' then some (-1, .other) else none
  | .ya joined => if joined && c == '\u1a17' then some (0, .letter .vowelYa) else none
  | .vowelYa => if c == '\u1a15' then some (0, .other) else none
  | .tifinagh joined =>
    if c == '\u2d7f' then some (1, .letter .tifinaghJoiner)
    else if joined && isTifinaghLetter c then some (0, .other)
    else none
  | .tifinaghJoiner => if isTifinaghLetter c then some (-1, .other) else none
  | .lisuTone => if inRanges [(0xa4f8, 0xa4fb)] c then some (0, .other) else none
  | .turkic joined => if joined && c.toNat == 0x10c32 then some (0, .other) else none

/-- The columns that a character adds to those of what stands behind it, if the two join. -/
def join? (c : Char) (b : Behind) : Option (Int × Behind) :=
  match b with
  | .letter j => joinLetters? c j
  | .vowelE =>
    if c.toNat == 0x16d63 || c.toNat == 0x16d69 then some (0, .other)
    else if c.toNat == 0x16d67 then some (0, .vowelAi)
    else if c.toNat == 0x16d68 then some (1, .vowelE)
    else none
  | .vowelAi => if c.toNat == 0x16d63 then some (0, .other) else none
  | .skinTone =>
    if isToneBase c then some (0, .picture)
    else if c == joiner then some (0, .joinedPicture)
    else none
  | .flagLetter => if isFlagLetter c then some (1, .flagLetters) else none
  | .flagLetters =>
    if isFlagLetter c then some (1, .flagLetters)
    else if c == joiner then some (0, .joinedPicture)
    else none
  | .picture => if c == joiner then some (0, .joinedPicture) else none
  | .joinedPicture =>
    if c == '\u20e3' then some (0, .joinedKey)
    else if isFlagLetter c then some (1, .joinedFlag)
    else if isSkinTone c then some (0, .skinTone)
    else if isPicture c then some (0, .picture)
    else none
  | .joinedFlag => if isFlagLetter c then some (-1, .evenJoinedFlags) else none
  | .evenJoinedFlags =>
    if isFlagLetter c then some (3, .oddJoinedFlags)
    else if c == joiner then some (0, .joinedPicture)
    else none
  | .oddJoinedFlags =>
    if isFlagLetter c then some (-1, .evenJoinedFlags)
    else if c == joiner then some (0, .joinedPicture)
    else none
  | .other | .lineFeed | .joinedKey => none

/-- The columns of a character by itself. -/
def alone (c : Char) : Int × Behind := (columns c, behindOf c)

/-- Whether a character stands on its own as text where a selector asks for that. -/
def isTextual (c : Char) : Bool :=
  isSelectable c && isPicture c && !inRanges [(0x1f200, 0x1f2ff)] c

/-- The columns that a character adds to those of a context without a selector. -/
def addTo (c : Char) (b : Behind) : Int × Behind :=
  if c.toNat ≤ 0xa0 then
    if c == '\n' then (1, .lineFeed)
    else if c == '\r' && b == .lineFeed then (0, .other)
    else (1, .other)
  else if b.allowsMarks && c == joiner then (0, b.join)
  else if b.allowsMarks && isHiddenMark c then (0, b)
  else (join? c b).getD (alone c)

/-- The columns that a character adds to those of what stands behind it. -/
def add (c : Char) (k : Context) : Int × Context :=
  if k.selector == some .picture && isSelectable c then
    let isJoined := k.behind == .joinedPicture || k.behind == .joinedKey
    (if isJoined then 0 else 2, ⟨none, .picture⟩)
  else
    let b := if k.selector == some .picture then k.behind.withoutSelector else k.behind
    match selector? c with
    | some s => (0, ⟨some s, if b.survives s then b else .other⟩)
    | none =>
      if k.selector == some .text && isTextual c then (1, ⟨none, .other⟩)
      else
        let (n, b) := addTo c b
        (n, ⟨none, b⟩)

/-- The columns that a text takes. -/
def width (s : String) : Nat :=
  (s.toList.foldr (fun c (n, k) => let (more, k) := add c k; (n + more, k))
    ((0 : Int), (⟨none, .other⟩ : Context))).1.toNat

end Cosim.Text
