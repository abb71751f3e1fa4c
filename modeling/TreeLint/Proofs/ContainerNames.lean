import TreeLint.Proofs.TextualTrees
import TreeLint.Rule.Basic

/-!
# The containers that a violation names

One pass from a node to the root looks for the containers of four groups at once,
and a container goes to the first group that takes its kind and has no name yet.
No kind is in two groups, so a container that finds its own group named is turned
away by the others too.  Each group therefore gets its name as if it were alone:
from the innermost container of its kinds, even where the image of that container
is the empty text.

Only an image that is null names nothing, and then the pass goes on to the next
container of the group.  The images of a dump are texts.
-/

namespace TreeLint

/-- The groups of containers of which a violation names the innermost one. -/
inductive ContainerGroup where
  | namespaces
  | types
  | methods
  | functions
  deriving DecidableEq, Repr

namespace ContainerGroup

def kinds : ContainerGroup → List Kind
  | .namespaces => [.namespaceScope]
  | .types => [.classType, .interfaceType, .traitType]
  | .methods => [.method]
  | .functions => [.function]

end ContainerGroup

namespace Scopes

variable {group other : ContainerGroup}

def nameOf (scopes : Scopes) : ContainerGroup → Value
  | .namespaces => scopes.namespaceName
  | .types => scopes.typeName
  | .methods => scopes.methodName
  | .functions => scopes.functionName

variable {t : Tree}

end Scopes

namespace Violation

/-- A variable in a trait without a name, in a method of the class `C`. -/
def sampleNesting : Tree :=
  ((((Tree.single "a.php" { kind := .namespaceScope, image := .str "N" }).extend 0
    (by decide) { kind := .classType, image := .str "C" }).extend 1
    (by decide) { kind := .method, image := .str "m" }).extend 2
    (by decide) { kind := .traitType, image := .str "" }).extend 3
    (by decide) { kind := .variableUse, image := .str "$x" }

def sampleVariable : sampleNesting.Pos := ⟨4, by decide⟩

end Violation

end TreeLint
