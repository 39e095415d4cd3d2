import LabelPress.CommandLine.Choice
import LabelPress.Delivery.Target
import LabelPress.Markup.Layout

/-!
# Commands

What the user can ask for. A file that is named by a dash is the standard input.
-/

namespace LabelPress.CommandLine

inductive MarkupLayout where
  | asIs
  | pretty
  | minified
  deriving DecidableEq, Repr

def MarkupLayout.apply : MarkupLayout → List Char → List Char
  | .asIs, s => s
  | .pretty, s => Markup.pretty s
  | .minified, s => Markup.minify s

inductive FormatTask where
  | output
  | write
  | check
  deriving DecidableEq, Repr

inductive Destination where
  | dryRun
  | file (path : String)
  | printer (address : String) (settings : Delivery.Settings)
  deriving Repr

inductive Drawer where
  | helper (program : String)
  | service (base : Option String)
  deriving DecidableEq, Repr

inductive Command where
  | tokens (file : String)
  | estimate (file : String) (assumptions : Estimate.Assumptions)
  | render (file : String) (media : MediaChoice) (config : ConfigChoice) (layout : MarkupLayout)
  | format (file : String) (minified : Bool) (task : FormatTask)
  | listTemplates (archive : String)
  /-- A raw template is expanded but not finished. -/
  | renderTemplate (archive name : String) (context : Label.Context) (raw : Bool)
      (media : MediaChoice) (config : ConfigChoice)
  | addTemplate (archive name body : String)
  | removeTemplate (archive name : String)
  | print (file : String) (destination : Destination) (media : MediaChoice)
      (config : ConfigChoice)
  | preview (file picture : String) (drawer : Drawer) (timeout : Time.Duration)
      (media : MediaChoice) (config : ConfigChoice)

def Destination.files : Destination → List String
  | .file path => [path, Delivery.partialName path]
  | .dryRun | .printer .. => []

def Command.files : Command → List String
  | .tokens file | .estimate file _ | .format file _ _ => [file]
  | .render file media config _ => file :: media.files ++ config.profile.toList
  | .listTemplates archive => [archive]
  | .renderTemplate archive _ _ _ media config =>
    archive :: media.files ++ config.profile.toList
  | .addTemplate archive _ body => [archive, Label.Archive.temporaryName archive, body]
  | .removeTemplate archive _ => [archive, Label.Archive.temporaryName archive]
  | .print file destination media config =>
    file :: destination.files ++ media.files ++ config.profile.toList
  | .preview file picture _ _ media config =>
    file :: (Destination.file picture).files ++ media.files ++ config.profile.toList

inductive OutputMode where
  | pretty
  | json
  deriving DecidableEq, Repr

/-- A command, and how its result is to be shown if the user says so. -/
structure Invocation where
  command : Command
  mode : Option OutputMode

end LabelPress.CommandLine
