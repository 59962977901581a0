import FlatUnion.Code.Generics

/-!
# Uses of parameters

Whether code uses a generic parameter. A lifetime is used where it stands, also where it is bound
anew. A path uses a parameter if it is the parameter's name and nothing more, and a type also if it
only begins with the name of a type parameter. What a macro is given is not looked into.
-/

namespace FlatUnion.Code

namespace Generics

/-- Whether a name is that of a parameter of some kind. -/
def declares (g : Generics) (kind : ParamKind) (name : String) : Bool :=
  g.params.any fun p => p.kind = kind && p.name = name

/-- Whether a path that is a name and nothing more is a parameter. -/
def isParameter (g : Generics) (p : Piece) : Bool :=
  p.name?.any fun name => g.declares .type name || g.declares .const name

/-- Whether a type begins with a type parameter. -/
def beginsType (g : Generics) (role : PathRole) (segments : List (String × List Piece)) : Bool :=
  role = .type && segments.head?.any fun s => g.declares .type s.1

end Generics

mutual

/-- Whether a piece of code uses a parameter. -/
def Piece.uses (g : Generics) : Piece → Bool
  | .token _ => false
  | .lifetime name => g.declares .lifetime name
  | .group _ inside => anyUses g inside
  | .path role leading segments =>
    (role ≠ .qualified && g.isParameter (.path role leading segments)) ||
      g.beginsType role segments || argumentsUse g segments

/-- Whether one of some pieces uses a parameter. -/
def anyUses (g : Generics) : List Piece → Bool
  | [] => false
  | p :: rest => p.uses g || anyUses g rest

/-- Whether the arguments of one of some segments use a parameter. -/
def argumentsUse (g : Generics) : List (String × List Piece) → Bool
  | [] => false
  | (_, arguments) :: rest => anyUses g arguments || argumentsUse g rest

end

end FlatUnion.Code
