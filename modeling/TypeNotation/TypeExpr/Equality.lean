import TypeNotation.TypeExpr.Basic

/-!
# Equality of type expressions

Two type expressions are equal when they have the same shape and the same texts. `same` compares
them from the root down, and `same_iff` says that it decides equality.
-/

namespace TypeNotation

mutual

/-- Whether two type expressions are equal. -/
def TypeExpr.same : TypeExpr → TypeExpr → Bool
  | .any, .any => true
  | .entity a, .entity b => a = b
  | .nullable a, .nullable b => a.same b
  | .union as, .union bs => sameTypes as bs
  | .function as a, .function bs b => sameParams as bs && sameResult a b
  | .array a, .array b => a.same b
  | .object as, .object bs => sameMembers as bs
  | .text a, .text b => a = b
  | .number a, .number b => a = b
  | _, _ => false

def Param.same : Param → Param → Bool
  | ⟨a, name, rest⟩, ⟨b, name', rest'⟩ => a.same b && name = name' && rest = rest'

def Member.same : Member → Member → Bool
  | ⟨name, a⟩, ⟨name', b⟩ => name = name' && a.same b

def sameTypes : List TypeExpr → List TypeExpr → Bool
  | [], [] => true
  | a :: as, b :: bs => a.same b && sameTypes as bs
  | _, _ => false

def sameParams : List Param → List Param → Bool
  | [], [] => true
  | a :: as, b :: bs => a.same b && sameParams as bs
  | _, _ => false

def sameMembers : List Member → List Member → Bool
  | [], [] => true
  | a :: as, b :: bs => a.same b && sameMembers as bs
  | _, _ => false

def sameResult : Option TypeExpr → Option TypeExpr → Bool
  | none, none => true
  | some a, some b => a.same b
  | _, _ => false

end

mutual

theorem TypeExpr.same_iff : ∀ a b : TypeExpr, a.same b = true ↔ a = b
  | .any, b => by cases b <;> simp [TypeExpr.same]
  | .entity _, b => by cases b <;> simp [TypeExpr.same]
  | .nullable a, b => by
    cases b <;> simp [TypeExpr.same]
    exact a.same_iff _
  | .union as, b => by
    cases b <;> simp [TypeExpr.same]
    exact sameTypes_iff as _
  | .function as a, b => by
    cases b <;> simp [TypeExpr.same]
    rw [sameParams_iff as, sameResult_iff a]
  | .array a, b => by
    cases b <;> simp [TypeExpr.same]
    exact a.same_iff _
  | .object as, b => by
    cases b <;> simp [TypeExpr.same]
    exact sameMembers_iff as _
  | .text _, b => by cases b <;> simp [TypeExpr.same]
  | .number _, b => by cases b <;> simp [TypeExpr.same]

theorem Param.same_iff : ∀ a b : Param, a.same b = true ↔ a = b
  | ⟨a, _, _⟩, ⟨b, _, _⟩ => by simp [Param.same, a.same_iff b, and_assoc]

theorem Member.same_iff : ∀ a b : Member, a.same b = true ↔ a = b
  | ⟨_, a⟩, ⟨_, b⟩ => by simp [Member.same, a.same_iff b]

theorem sameTypes_iff : ∀ as bs : List TypeExpr, sameTypes as bs = true ↔ as = bs
  | [], bs => by cases bs <;> simp [sameTypes]
  | a :: as, [] => by simp [sameTypes]
  | a :: as, b :: bs => by simp [sameTypes, a.same_iff b, sameTypes_iff as bs]

theorem sameParams_iff : ∀ as bs : List Param, sameParams as bs = true ↔ as = bs
  | [], bs => by cases bs <;> simp [sameParams]
  | a :: as, [] => by simp [sameParams]
  | a :: as, b :: bs => by simp [sameParams, a.same_iff b, sameParams_iff as bs]

theorem sameMembers_iff : ∀ as bs : List Member, sameMembers as bs = true ↔ as = bs
  | [], bs => by cases bs <;> simp [sameMembers]
  | a :: as, [] => by simp [sameMembers]
  | a :: as, b :: bs => by simp [sameMembers, a.same_iff b, sameMembers_iff as bs]

theorem sameResult_iff : ∀ a b : Option TypeExpr, sameResult a b = true ↔ a = b
  | none, b => by cases b <;> simp [sameResult]
  | some _, none => by simp [sameResult]
  | some a, some b => by simp [sameResult, a.same_iff b]

end

instance : DecidableEq TypeExpr := fun a b ↦ decidable_of_iff _ (a.same_iff b)

end TypeNotation
