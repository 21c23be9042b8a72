import BuildConstants.Document.Decode
import BuildConstants.Path

/-!
# Paths as documents

A path is written as its text.
-/

namespace BuildConstants.Path

def toDocument (path : Path) : Document :=
  .text path.text

def ofDocument : Decoder Path := fun doc =>
  doc.asText.map Path.mk

end BuildConstants.Path
