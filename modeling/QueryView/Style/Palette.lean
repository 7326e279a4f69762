/-
Themes and their palettes.

A theme is light or dark.  It fixes a palette of seven colors, one for each class
of token, and the color of text that is not highlighted at all.
-/
import QueryView.Style.Color
import QueryView.Style.TokenClass

namespace QueryView

structure Palette where
  plain : Color
  keyword : Color
  string : Color
  number : Color
  comment : Color
  propertyName : Color
  boolean : Color
  deriving DecidableEq

namespace Palette

def colorOf (p : Palette) : TokenClass → Color
  | .plain => p.plain
  | .keyword => p.keyword
  | .string => p.string
  | .number => p.number
  | .comment => p.comment
  | .propertyName => p.propertyName
  | .boolean => p.boolean

end Palette

inductive Theme where
  | light
  | dark
  deriving DecidableEq

namespace Theme

/-- The theme in force where none is chosen. -/
def standard : Theme := light

def name : Theme → Text
  | light => "light".toList
  | dark => "dark".toList

/-- The theme a text names, in either case and with blanks around it. -/
def ofName? (t : Text) : Option Theme :=
  let word := Text.lower (Text.trim t)
  if word = "light".toList then some light
  else if word = "dark".toList then some dark
  else none

def isDark : Theme → Bool
  | light => false
  | dark => true

def toggle : Theme → Theme
  | light => dark
  | dark => light

/-- Text without highlighting is black on light and white on dark. -/
def plainTextColor : Theme → Color
  | light => Color.black
  | dark => Color.white

def palette : Theme → Palette
  | light =>
    { plain := Color.ofCode 0x202020
      keyword := Color.ofCode 0x0066CC
      string := Color.ofCode 0xA31515
      number := Color.ofCode 0x098658
      comment := Color.ofCode 0x6A9955
      propertyName := Color.ofCode 0x1A4B94
      boolean := Color.ofCode 0xB000B5 }
  | dark =>
    { plain := Color.ofCode 0xE8E8E8
      keyword := Color.ofCode 0x4FC1FF
      string := Color.ofCode 0xCE9178
      number := Color.ofCode 0xB5CEA8
      comment := Color.ofCode 0x6A9955
      propertyName := Color.ofCode 0x4EC9B0
      boolean := Color.ofCode 0xC586C0 }

end Theme
end QueryView
