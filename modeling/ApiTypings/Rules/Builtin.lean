import ApiTypings.Rules.Basic

/-!
# Rules for the scripting API

The rules for the API that the documentation is published of (`RuleTable.builtin`):
callbacks and collections of its classes, the constructor of vectors, and the one generic
function.
-/

namespace ApiTypings

open Checked

namespace Rule

/-- For a documented `Function`: a callback with the given parameters and result. -/
def callbackTo (params : List (String × TypeSpec)) (result : Checked TypeExpr) : Rule :=
  fun site => do
    if site.isFunction then
      let params ← each (fun (name, type) => param name type) params
      return some (.function params (← result))
    else return none

/-- For a documented `Function`: a callback with the given parameters, from which nothing
is returned. -/
def callback (params : List (String × TypeSpec)) : Rule :=
  callbackTo params (pure (.keyword .void))

/-- For a documented `Table`: a type that is made in the given way. -/
def table (type : Checked TypeExpr) : Rule := fun site => do
  if site.isTable then return some (← type) else return none

/-- Whatever is documented: a type that is made in the given way. -/
def always (type : Checked TypeExpr) : Rule := fun _ => do return some (← type)

/-- A callback for an action. -/
def action : Rule := callback [("action", "Action")]

/-- A callback for an action that is switched on and off. -/
def toggle : Rule := callback [("state", Keyword.boolean), ("action", "Action")]

/-- A callback for scrolling over an action. -/
def actionScroll : Rule := callback [("delta", Keyword.number), ("action", "Action")]

/-- A callback for a key. -/
def keybind : Rule := callback [("modifiersBitmask", Keyword.number), ("keybind", "Keybind")]

/-- A list of texts. -/
def stringList : Rule := table (luaMap Keyword.number Keyword.string)

/-- A callback that finds a colour, or leaves the one that is there. -/
def pixel : Rule :=
  callbackTo [("color", "Vector4"), ("x", Keyword.number), ("y", Keyword.number)] do
    union [← documentedType "Vector4", Keyword.undefined]

/-- A callback that finds an element of a vector. -/
def element : Rule :=
  callbackTo [("element", Keyword.number), ("index", Keyword.number)]
    (pure (.keyword .number))

/-- The pages by their titles, or one page if there is one. -/
def page : Rule := fun site => do
  if site.isTable then return some (← luaMap Keyword.string "Page")
  else return some (← union [← documentedType "Page", Keyword.undefined])

/-- The least and the greatest height, returned at once. -/
def heights : Rule := fun site => do
  if site.documented = "Varargs" then
    return some (multiReturn [← item Keyword.number, ← item Keyword.number])
  else return none

/-- Shapes, each of which is a list of corners. -/
def shapes : Rule :=
  table do luaMap Keyword.number (← luaMap Keyword.number "Vector3")

/-- Sounds and their properties. -/
def sounds : Rule :=
  table do luaMap Keyword.string (← union [Keyword.string, Keyword.number])

/-- The variables of every player. -/
def avatarVariables : Rule :=
  table do luaMap Keyword.string (← luaMap Keyword.string Keyword.any)

/-- A function that makes a vector from its coordinates. -/
def vectorConstructor (axes : List String) (result : String) : Checked TypeExpr := do
  functionType (← each (fun axis => param axis Keyword.number) axes) result

/-- The functions that make vectors, under one name. -/
def vectorConstructors : Rule := always do
  intersection [← vectorConstructor ["x", "y"] "Vector2",
    ← vectorConstructor ["x", "y", "z"] "Vector3",
    ← vectorConstructor ["x", "y", "z", "w"] "Vector4"]

end Rule

/-- A function that finds a value between two numbers, vectors or matrices. -/
def interpolation : SignatureRule := fun name => do
  let interpolated ← union [← typeOf Keyword.number, ← documentedType "Vector2",
    ← documentedType "Vector3", ← documentedType "Vector4", ← documentedType "Matrix2",
    ← documentedType "Matrix3", ← documentedType "Matrix4"]
  let params := [← param "start" "T", ← param "end" "T", ← param "t" Keyword.number]
  let generic ← typeParam "T" (some interpolated)
  return [← function name params "T" [] [generic]]

namespace RuleTable

/-- The rules for the published documentation. -/
def builtin : RuleTable :=
  empty
  |>.addAll ["ActionWheelAPI"] ["leftClick", "rightClick"] .field (.callback [])
  |>.add "ActionWheelAPI" "scroll" .field (.callback [("delta", Keyword.number)])
  |>.addAll ["Action"] ["leftClick", "rightClick"] .field .action
  |>.addAll ["Action"] ["toggle", "untoggle"] .field .toggle
  |>.add "Action" "scroll" .field .actionScroll
  |>.addAll ["ModelPart"] ["preRender", "midRender", "postRender"] .field (.callback [])
  |>.addAll ["Keybind"] ["press", "release"] .field .keybind
  |>.addAll ["Action"] ["setOnLeftClick", "setOnRightClick"] .parameter .action
  |>.addAll ["Action"] ["setOnToggle", "setOnUntoggle"] .parameter .toggle
  |>.add "Action" "setOnScroll" .parameter .actionScroll
  |>.addAll ["Event"] ["remove", "register"] .parameter (.callback [])
  |>.addAll ["ModelPart"] ["setPreRender", "setMidRender", "setPostRender"] .parameter
    (.callback [])
  |>.addAll ["Keybind"] ["setOnPress", "setOnRelease"] .parameter .keybind
  |>.add "Texture" "applyFunc" .parameter .pixel
  |>.addAll ["Vector2", "Vector3", "Vector4"] ["applyFunc"] .parameter .element
  |>.add "ActionWheelAPI" "getPage" .result .page
  |>.add "SoundAPI" "getCustomSounds" .result
    (.always (luaMap Keyword.number Keyword.string))
  |>.addAll ["AnimationAPI"] ["getPlaying", "getAnimations"] .result
    (.table (luaMap Keyword.string "Animation"))
  |>.addAll ["BlockState"] ["getProperties", "getEntityData"] .result
    (.table (luaMap Keyword.string Keyword.any))
  |>.addAll ["BlockState", "Biome"] ["getTags"] .result .stringList
  |>.add "BlockState" "getFluidTags" .result .stringList
  |>.addAll ["BlockState"] ["getCollisionShape", "getOutlineShape"] .result .shapes
  |>.add "BlockState" "getSounds" .result .sounds
  |>.add "WorldAPI" "getBlocks" .result (.table (luaMap Keyword.number "BlockState"))
  |>.add "WorldAPI" "getPlayers" .result (.table (luaMap Keyword.string "PlayerAPI"))
  |>.add "WorldAPI" "avatarVars" .result .avatarVariables
  |>.add "WorldAPI" "getBuildHeight" .result .heights
  |>.add "globals" "vec" .constant .vectorConstructors
  |>.addSignature "lerp" interpolation

end RuleTable

end ApiTypings
