import TypeNotation.Parser.Outcome
import TypeNotation.Proofs.Grammar.Derivation
import TypeNotation.Proofs.Lexical.Pieces

/-!
# Where parameters begin

The grammar once more, for tokens in their places, with the token that each parameter begins with.
A parameter comes in front of the parameters in its own type, and the parameters of a function come
in front of those in its result. A parameter that takes all further arguments is told by its dots
and is left out, but not what its type contains.

Without the places this is the grammar, and without the tokens it is a walk through the type. So the
relation says of each parameter in a type which token of an annotation begins it.
-/

namespace TypeNotation

/-! ## Parameters in a type -/

mutual

/-- The parameters in a type that take one argument, each in front of those in its own type. -/
def TypeExpr.fixedParams : TypeExpr → List Param
  | .any => []
  | .entity _ => []
  | .nullable inner => inner.fixedParams
  | .union members => fixedParamsOfTypes members
  | .function params result => fixedParamsOfParams params ++ fixedParamsOfResult result
  | .array element => element.fixedParams
  | .object members => fixedParamsOfMembers members
  | .text _ => []
  | .number _ => []

/-- A parameter, if it takes one argument, and the parameters in its type. -/
def Param.fixedParams : Param → List Param
  | ⟨type, name, rest⟩ => (if rest then [] else [⟨type, name, rest⟩]) ++ type.fixedParams

def Member.fixedParams : Member → List Param
  | ⟨_, type⟩ => type.fixedParams

def fixedParamsOfTypes : List TypeExpr → List Param
  | [] => []
  | type :: types => type.fixedParams ++ fixedParamsOfTypes types

def fixedParamsOfParams : List Param → List Param
  | [] => []
  | param :: params => param.fixedParams ++ fixedParamsOfParams params

def fixedParamsOfMembers : List Member → List Param
  | [] => []
  | member :: members => member.fixedParams ++ fixedParamsOfMembers members

def fixedParamsOfResult : Option TypeExpr → List Param
  | none => []
  | some type => type.fixedParams

end

/-! ## The grammar with places -/

/-- A parameter and the token that it begins with. -/
structure ParamStart where
  first : Located
  param : Param

/-- The decision that is noted at the beginning of a parameter. -/
def ParamStart.note (start : ParamStart) : ParamNote :=
  ⟨start.first.span, start.param.name.isSome⟩

/-- Items one after the other, each with or without a comma behind it, and the parameters that begin
in them. -/
inductive ListOfAt {α : Type} (Item : List Located → α → List ParamStart → Prop) :
    List Located → List α → List ParamStart → Prop
  | nil : ListOfAt Item [] [] []
  | cons {first others : List Located} {a : α} {as : List α} {starts starts' : List ParamStart}
      (head : Item first a starts) (tail : ListOfAt Item others as starts') :
      ListOfAt Item (first ++ others) (a :: as) (starts ++ starts')
  | consComma {first others : List Located} {a : α} {as : List α}
      {starts starts' : List ParamStart} (comma : Span)
      (head : Item first a starts) (tail : ListOfAt Item others as starts') :
      ListOfAt Item (first ++ ⟨.symbol .comma, comma⟩ :: others) (a :: as) (starts ++ starts')

mutual

/-- Tokens are a type in which parameters begin. -/
inductive DerivesAt : List Located → TypeExpr → List ParamStart → Prop
  | any (span : Span) : DerivesAt [⟨.symbol .any, span⟩] .any []
  | text (value : String) (span : Span) : DerivesAt [⟨.string value, span⟩] (.text value) []
  | number (text : String) (span : Span) : DerivesAt [⟨.number text, span⟩] (.number text) []
  | entity {behind : List Located} {segments : List String} (name : String) (span : Span)
      (hsegments : tokensOf behind = segmentTokens segments) :
      DerivesAt (⟨.identifier name, span⟩ :: behind)
        (.entity (".".intercalate (name :: segments))) []
  | nullable {located : List Located} {inner : TypeExpr} {starts : List ParamStart}
      (question : Span) (type : DerivesAt located inner starts) :
      DerivesAt (⟨.symbol .question, question⟩ :: located) (.nullable inner) starts
  | array {located : List Located} {element : TypeExpr} {starts : List ParamStart}
      (opening closing : Span) (type : DerivesAt located element starts) :
      DerivesAt (⟨.symbol .leftBracket, opening⟩ :: located ++ [⟨.symbol .rightBracket, closing⟩])
        (.array element) starts
  | union {located : List Located} {members : List TypeExpr} {starts : List ParamStart}
      (word opening closing : Span) (items : ListOfAt DerivesAt located members starts) :
      DerivesAt
        (⟨.symbol .union, word⟩ :: ⟨.symbol .less, opening⟩ :: located ++
          [⟨.symbol .greater, closing⟩])
        (.union members) starts
  | object {located : List Located} {members : List Member} {starts : List ParamStart}
      (opening closing : Span) (items : ListOfAt DerivesMemberAt located members starts) :
      DerivesAt (⟨.symbol .leftBrace, opening⟩ :: located ++ [⟨.symbol .rightBrace, closing⟩])
        (.object members) starts
  | function {located : List Located} {params : List Param} {starts : List ParamStart}
      (opening closing : Span) (items : ListOfAt DerivesParamAt located params starts) :
      DerivesAt (⟨.symbol .leftParen, opening⟩ :: located ++ [⟨.symbol .rightParen, closing⟩])
        (.function params none) starts
  | functionTo {located resultLocated : List Located} {params : List Param} {result : TypeExpr}
      {starts resultStarts : List ParamStart} (opening closing arrow : Span)
      (items : ListOfAt DerivesParamAt located params starts)
      (type : DerivesAt resultLocated result resultStarts) :
      DerivesAt
        (⟨.symbol .leftParen, opening⟩ :: located ++
          ⟨.symbol .rightParen, closing⟩ :: ⟨.symbol .arrow, arrow⟩ :: resultLocated)
        (.function params (some result)) (starts ++ resultStarts)

/-- Tokens are a parameter. It begins with the first of them, unless that is its dots. -/
inductive DerivesParamAt : List Located → Param → List ParamStart → Prop
  | unnamed {first : Located} {others : List Located} {t : TypeExpr} {starts : List ParamStart}
      (type : DerivesAt (first :: others) t starts) :
      DerivesParamAt (first :: others) (.unnamed t) (⟨first, .unnamed t⟩ :: starts)
  | named {located : List Located} {t : TypeExpr} {starts : List ParamStart} (name : String)
      (span colon : Span) (type : DerivesAt located t starts) :
      DerivesParamAt (⟨.identifier name, span⟩ :: ⟨.symbol .colon, colon⟩ :: located)
        (.named name t) (⟨⟨.identifier name, span⟩, .named name t⟩ :: starts)
  | variadic {located : List Located} {t : TypeExpr} {starts : List ParamStart} (name : String)
      (dots span colon : Span) (type : DerivesAt located t starts) :
      DerivesParamAt
        (⟨.symbol .ellipsis, dots⟩ :: ⟨.identifier name, span⟩ :: ⟨.symbol .colon, colon⟩ ::
          located)
        (.variadic name t) starts

inductive DerivesMemberAt : List Located → Member → List ParamStart → Prop
  | mk {located : List Located} {t : TypeExpr} {starts : List ParamStart} (name : String)
      (span colon : Span) (type : DerivesAt located t starts) :
      DerivesMemberAt (⟨.identifier name, span⟩ :: ⟨.symbol .colon, colon⟩ :: located) ⟨name, t⟩
        starts

end

/-! ## Without the places -/

mutual

/-- Without the places this is the grammar. -/
theorem DerivesAt.derives {located : List Located} {t : TypeExpr} {starts : List ParamStart} :
    DerivesAt located t starts → Derives (tokensOf located) t
  | .any _ => .any
  | .text value _ => .text value
  | .number text _ => .number text
  | .entity name _ hsegments => by
    rw [tokensOf_cons, hsegments]
    exact .entity name _
  | .nullable _ type => .nullable type.derives
  | .array _ _ type => by
    simpa using Derives.array type.derives
  | .union _ _ _ items => by
    simpa using Derives.union (listOf_of_typesAt items)
  | .object _ _ items => by
    simpa using Derives.object (listOf_of_membersAt items)
  | .function _ _ items => by
    simpa using Derives.function (listOf_of_paramsAt items)
  | .functionTo _ _ _ items type => by
    simpa using Derives.functionTo (listOf_of_paramsAt items) type.derives

theorem DerivesParamAt.derives {located : List Located} {param : Param} {starts : List ParamStart} :
    DerivesParamAt located param starts → DerivesParam (tokensOf located) param
  | .unnamed type => .unnamed type.derives
  | .named name _ _ type => .named name type.derives
  | .variadic name _ _ _ type => .variadic name type.derives

theorem DerivesMemberAt.derives {located : List Located} {member : Member}
    {starts : List ParamStart} :
    DerivesMemberAt located member starts → DerivesMember (tokensOf located) member
  | .mk name _ _ type => .mk name type.derives

theorem listOf_of_typesAt {located : List Located} {types : List TypeExpr}
    {starts : List ParamStart} :
    ListOfAt DerivesAt located types starts → ListOf Derives (tokensOf located) types
  | .nil => .nil
  | .cons head tail => by
    simpa using ListOf.cons head.derives (listOf_of_typesAt tail)
  | .consComma _ head tail => by
    simpa using ListOf.consComma head.derives (listOf_of_typesAt tail)

theorem listOf_of_paramsAt {located : List Located} {params : List Param}
    {starts : List ParamStart} :
    ListOfAt DerivesParamAt located params starts → ListOf DerivesParam (tokensOf located) params
  | .nil => .nil
  | .cons head tail => by
    simpa using ListOf.cons head.derives (listOf_of_paramsAt tail)
  | .consComma _ head tail => by
    simpa using ListOf.consComma head.derives (listOf_of_paramsAt tail)

theorem listOf_of_membersAt {located : List Located} {members : List Member}
    {starts : List ParamStart} :
    ListOfAt DerivesMemberAt located members starts →
      ListOf DerivesMember (tokensOf located) members
  | .nil => .nil
  | .cons head tail => by
    simpa using ListOf.cons head.derives (listOf_of_membersAt tail)
  | .consComma _ head tail => by
    simpa using ListOf.consComma head.derives (listOf_of_membersAt tail)

end

/-! ## Without the tokens -/

mutual

/-- The parameters that begin in a type are those of the type, in order. -/
theorem DerivesAt.map_param {located : List Located} {t : TypeExpr} {starts : List ParamStart} :
    DerivesAt located t starts → starts.map ParamStart.param = t.fixedParams
  | .any _ => rfl
  | .text _ _ => rfl
  | .number _ _ => rfl
  | .entity _ _ _ => rfl
  | .nullable _ type => type.map_param
  | .array _ _ type => type.map_param
  | .union _ _ _ items => map_param_of_typesAt items
  | .object _ _ items => map_param_of_membersAt items
  | .function _ _ items => by
    rw [map_param_of_paramsAt items]
    exact (List.append_nil _).symm
  | .functionTo _ _ _ items type => by
    rw [List.map_append, map_param_of_paramsAt items, type.map_param]
    rfl

theorem DerivesParamAt.map_param {located : List Located} {param : Param}
    {starts : List ParamStart} :
    DerivesParamAt located param starts → starts.map ParamStart.param = param.fixedParams
  | .unnamed type => by
    rw [List.map_cons, type.map_param]
    rfl
  | .named _ _ _ type => by
    rw [List.map_cons, type.map_param]
    rfl
  | .variadic _ _ _ _ type => type.map_param

theorem DerivesMemberAt.map_param {located : List Located} {member : Member}
    {starts : List ParamStart} :
    DerivesMemberAt located member starts → starts.map ParamStart.param = member.fixedParams
  | .mk _ _ _ type => type.map_param

theorem map_param_of_typesAt {located : List Located} {types : List TypeExpr}
    {starts : List ParamStart} :
    ListOfAt DerivesAt located types starts →
      starts.map ParamStart.param = fixedParamsOfTypes types
  | .nil => rfl
  | .cons head tail | .consComma _ head tail => by
    rw [List.map_append, head.map_param, map_param_of_typesAt tail]
    rfl

theorem map_param_of_paramsAt {located : List Located} {params : List Param}
    {starts : List ParamStart} :
    ListOfAt DerivesParamAt located params starts →
      starts.map ParamStart.param = fixedParamsOfParams params
  | .nil => rfl
  | .cons head tail | .consComma _ head tail => by
    rw [List.map_append, head.map_param, map_param_of_paramsAt tail]
    rfl

theorem map_param_of_membersAt {located : List Located} {members : List Member}
    {starts : List ParamStart} :
    ListOfAt DerivesMemberAt located members starts →
      starts.map ParamStart.param = fixedParamsOfMembers members
  | .nil => rfl
  | .cons head tail | .consComma _ head tail => by
    rw [List.map_append, head.map_param, map_param_of_membersAt tail]
    rfl

end

end TypeNotation
