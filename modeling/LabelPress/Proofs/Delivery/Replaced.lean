import LabelPress.Delivery.Target
import LabelPress.Proofs.Files.Course
import LabelPress.Proofs.Label.Stored

/-!
# Labels and archives in files

A label that is put into a file, and an archive that is saved, take the place of what the file held as a whole, or
the file stays as it was.
-/

namespace LabelPress.Delivery

open Files Label Text

variable {files : Store} {path : String} {native : Option UInt32} {strict : Bool} {p : Payload} {target : UInt32}

end LabelPress.Delivery
