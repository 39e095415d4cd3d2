import LabelPress.CommandLine.Failure
import LabelPress.Finish.Config

/-!
# What the user chooses

The printer, the stock and the settings of a label are named on the command line, or kept in files
that are named there.
-/

namespace LabelPress.CommandLine

open Files

/-! ## Printer and stock -/

inductive DeviceChoice where
  | profile (path : String)
  | model (model : Media.Model) (dpi : UInt32)
  deriving Repr

inductive StockChoice where
  | profile (path : String)
  | inches (width height gap : Float) (continuous : Bool)
  deriving Repr

structure MediaChoice where
  device : DeviceChoice
  stock : StockChoice
  /-- The resolution to draw at, if it is not the printer's own. -/
  surfaceDpi : Option UInt32
  deriving Repr

def MediaChoice.files (c : MediaChoice) : List String :=
  let device := match c.device with
    | .profile path => [path]
    | .model .. => []
  let stock := match c.stock with
    | .profile path => [path]
    | .inches .. => []
  device ++ stock

def readProfile (files : Store) (kind : ProfileKind) (path : String) :
    Except Failure (List Char) :=
  (files.readText path).mapError (.unreadableProfile kind path)

def namedResolution (name : String) (dpi : UInt32) : Except Failure Media.Resolution :=
  (Media.resolution dpi).mapError (.invalidResolution name)

def DeviceChoice.device (files : Store) : DeviceChoice → Except Failure Media.Device
  | .profile path => do
    let text ← readProfile files .device path
    (Media.loadDevice text).mapError (.invalidProfile .device path)
  | .model m dpi => do
    let r ← namedResolution "dpi" dpi
    (Media.device m r).mapError .notMade

def StockChoice.stock (files : Store) : StockChoice → Except Failure Media.Stock
  | .profile path => do
    let text ← readProfile files .stock path
    (Media.loadStock text).mapError (.invalidProfile .stock path)
  | .inches width height gap continuous =>
    let s := Media.Stock.ofInches width height gap continuous
    if s.width.isPositive then .ok s else .error .noWidth

def MediaChoice.setup (files : Store) (c : MediaChoice) : Except Failure Media.Setup := do
  let device ← c.device.device files
  let stock ← c.stock.stock files
  let native := Media.Setup.native device stock
  match c.surfaceDpi with
  | none => return native
  | some dpi => return { native with surface := stock.surface (← namedResolution "render-dpi" dpi) }

/-! ## Settings -/

/-- How labels are to be finished: settings in a file, and what takes their place. -/
structure ConfigChoice where
  profile : Option String
  margin : Option UInt32
  placeholder : Option (List Char)
  strict : Bool
  addWidth : Bool
  deriving Repr

def baseConfig (files : Store) : Option String → Except Failure Finish.Config
  | none => .ok {}
  | some path => do
    let text ← readProfile files .finish path
    (Json.decode Finish.Config.record.decoder text).mapError (.invalidConfig path)

def ConfigChoice.config (files : Store) (c : ConfigChoice) : Except Failure Finish.Config := do
  let base ← baseConfig files c.profile
  return { base with
    margin := c.margin.getD base.margin
    placeholder := c.placeholder.getD base.placeholder
    strict := base.strict || c.strict
    addWidth := base.addWidth || c.addWidth }

end LabelPress.CommandLine
