import FramedTasks.Bytes

/-! # Markers of MessagePack

Every item starts with a marker byte, which fixes the kind of the item and sometimes a small
number: its value or its length.
-/

namespace FramedTasks.MessagePack

/-- How many bytes a number or a length takes. -/
inductive Width where
  | one
  | two
  | four
  | eight
deriving DecidableEq, Repr

def Width.bytes : Width → Nat
  | .one => 1
  | .two => 2
  | .four => 4
  | .eight => 8

inductive Marker where
  | fixPos (value : Nat)
  | fixNeg (value : Int)
  | fixMap (length : Nat)
  | fixArray (length : Nat)
  | fixStr (length : Nat)
  | nil
  | reserved
  | bool (value : Bool)
  | bin (width : Width)
  | ext (width : Width)
  | float (width : Width)
  | unsigned (width : Width)
  | signed (width : Width)
  | fixExt (length : Nat)
  | str (width : Width)
  | array (width : Width)
  | map (width : Width)
deriving DecidableEq, Repr

def Marker.ofByte (byte : UInt8) : Marker :=
  let code := byte.toNat
  if code < 0x80 then .fixPos code
  else if code < 0x90 then .fixMap (code - 0x80)
  else if code < 0xA0 then .fixArray (code - 0x90)
  else if code < 0xC0 then .fixStr (code - 0xA0)
  else match code with
    | 0xC0 => .nil
    | 0xC1 => .reserved
    | 0xC2 => .bool false
    | 0xC3 => .bool true
    | 0xC4 => .bin .one
    | 0xC5 => .bin .two
    | 0xC6 => .bin .four
    | 0xC7 => .ext .one
    | 0xC8 => .ext .two
    | 0xC9 => .ext .four
    | 0xCA => .float .four
    | 0xCB => .float .eight
    | 0xCC => .unsigned .one
    | 0xCD => .unsigned .two
    | 0xCE => .unsigned .four
    | 0xCF => .unsigned .eight
    | 0xD0 => .signed .one
    | 0xD1 => .signed .two
    | 0xD2 => .signed .four
    | 0xD3 => .signed .eight
    | 0xD4 => .fixExt 1
    | 0xD5 => .fixExt 2
    | 0xD6 => .fixExt 4
    | 0xD7 => .fixExt 8
    | 0xD8 => .fixExt 16
    | 0xD9 => .str .one
    | 0xDA => .str .two
    | 0xDB => .str .four
    | 0xDC => .array .two
    | 0xDD => .array .four
    | 0xDE => .map .two
    | 0xDF => .map .four
    | _ => .fixNeg ((code : Int) - 0x100)

def Width.bits (width : Width) : Nat := 8 * width.bytes

def Marker.name : Marker → String
  | .fixPos value => s!"FixPos({value})"
  | .fixNeg value => s!"FixNeg({value})"
  | .fixMap length => s!"FixMap({length})"
  | .fixArray length => s!"FixArray({length})"
  | .fixStr length => s!"FixStr({length})"
  | .nil => "Null"
  | .reserved => "Reserved"
  | .bool true => "True"
  | .bool false => "False"
  | .bin width => s!"Bin{width.bits}"
  | .ext width => s!"Ext{width.bits}"
  | .float width => s!"F{width.bits}"
  | .unsigned width => s!"U{width.bits}"
  | .signed width => s!"I{width.bits}"
  | .fixExt length => s!"FixExt{length}"
  | .str width => s!"Str{width.bits}"
  | .array width => s!"Array{width.bits}"
  | .map width => s!"Map{width.bits}"

end FramedTasks.MessagePack
