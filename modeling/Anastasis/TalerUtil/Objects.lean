import Mathlib.Logic.Basic

/-! What every JavaScript object has, whatever is stored in it. -/

set_option autoImplicit false

namespace Anastasis.TalerUtil

def objectPrototype : List String :=
  ["constructor", "__defineGetter__", "__defineSetter__", "hasOwnProperty", "__lookupGetter__",
    "__lookupSetter__", "isPrototypeOf", "propertyIsEnumerable", "toString", "valueOf", "__proto__",
    "toLocaleString"]

end Anastasis.TalerUtil
