import AmdBundle.Loader.Wrap
import AmdBundle.Resource.Fragment

/-!
# Bundles

* `isBundle` : was the text bundled before;
* `bundle` : the modules of a text with their resources, inside the loader.
-/

set_option autoImplicit false

namespace AmdBundle

def isBundle (code : Text) : Bool :=
  Text.occursIn Loader.marker code

/-- The modules of a text and the modules of their resources, inside the loader. Files are read and
never written. There is no result at all if the literals of the text cannot be replaced. -/
def bundle (fs : FileTree) (o : BundleOptions) (code : Text) : Option (Except BundleError Text) :=
  (Fragment.inject fs o.projectRoot code).map fun injected => injected.map (Loader.wrap o.loader)

end AmdBundle
