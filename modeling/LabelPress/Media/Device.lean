import LabelPress.Media.Stock

/-!
# Printers

A printer has a resolution and limits. The limits belong to the printer, not to the stock in it.
-/

namespace LabelPress.Media

inductive Model where
  | zd620
  | zt411
  deriving DecidableEq, Repr

namespace Model

def name : Model → String
  | zd620 => "ZD620"
  | zt411 => "ZT411"

def all : List Model := [zd620, zt411]

def ofName? (s : String) : Option Model :=
  all.find? fun m => m.name == s

def resolutions : Model → List Resolution
  | zd620 => [.dpi203, .dpi300]
  | zt411 => [.dpi300, .dpi600]

def maxWidth (_ : Model) : Measure := .inches 4.09

def maxLength : Model → Measure
  | zd620 => .inches 39.0
  | zt411 => .inches 157.0

end Model

structure Device where
  name : String
  resolution : Resolution
  maxWidth : UInt32
  maxLength : UInt32
  deriving DecidableEq, Repr

/-- The printer of a model at a resolution, if the model is made in it. -/
def Device.ofModel? (m : Model) (r : Resolution) : Option Device :=
  if r ∈ m.resolutions then
    some ⟨m.name ++ "-" ++ toString r.dpi.toNat, r, m.maxWidth.toDots r, m.maxLength.toDots r⟩
  else none

structure Setup where
  surface : Surface
  stock : Stock
  device : Device
  deriving Repr

def Setup.native (d : Device) (s : Stock) : Setup :=
  ⟨s.surface d.resolution, s, d⟩

end LabelPress.Media
