import BindingSynthesis.Library.Basic
import BindingSynthesis.Options

/-!
# BindingSynthesis.Dedupe

Libraries re-export one class under several module paths.  Of the classes that
share a name, one is wrapped.

1. Classes of denied modules do not count.
2. The first class of a name takes its place among the names.
3. A later class of the same name replaces it there if the later one is
   declared in the canonical module of the library and the earlier one is not.
-/

namespace BindingSynthesis.Dedupe

/-- The classes chosen so far with one more class considered. -/
def place (canonical : String) (c : ForeignClass) : List ForeignClass → List ForeignClass
  | [] => [c]
  | chosen :: more =>
    if chosen.name = c.name then
      (if c.modulePath = canonical ∧ chosen.modulePath ≠ canonical then c else chosen) :: more
    else chosen :: place canonical c more

/-- The classes of modules that are not denied. -/
def permitted (o : SynthesisOptions) (classes : List ForeignClass) : List ForeignClass :=
  classes.filter fun c => !o.isDenied c.modulePath

/-- One class for each name. -/
def dedupe (o : SynthesisOptions) (library : String) (classes : List ForeignClass) :
    List ForeignClass :=
  (permitted o classes).foldl (fun chosen c => place (o.canonicalModule library) c chosen) []

end BindingSynthesis.Dedupe
