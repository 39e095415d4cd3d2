import LabelPress.Label.Archive

/-!
# Where labels come from

A label is given as text, made by a generator, read from a file, or expanded from a template.
-/

namespace LabelPress.Label

open Files

inductive Source where
  | text (s : List Char)
  | generated (result : Except (List Char) (List Char))
  | file (path : String)
  | template (archive : Archive) (name : String) (context : Context) (placeholder : List Char)

def Source.markup (files : Store) : Source → Except SourceError (List Char)
  | .text s => .ok s
  | .generated r => r.mapError .generator
  | .file path => (files.readText path).mapError fun e => .access ⟨path, e⟩
  | .template archive name context placeholder => archive.render name context placeholder

end LabelPress.Label
