/-
  RouteAtlas: scopes that agree.

  Types depend on a scope only through what is known of each name: scopes that agree on every name give
  every expression the same type (`infer_agree`).
-/
import RouteAtlas.Typing.Inference

namespace RouteAtlas.Typing

open RouteAtlas.Code

/-- The same is known of every name. -/
def Agree (s s' : Scope) : Prop :=
  ∀ name, s.find? name = s'.find? name

variable {s s' : Scope}

theorem Agree.value? (h : Agree s s') (name : String) : s.value? name = s'.value? name := by
  unfold Scope.value?
  rw [h name]

theorem Agree.callable? (h : Agree s s') (name : String) : s.callable? name = s'.callable? name := by
  unfold Scope.callable?
  rw [h name]

section
variable (infer : Infer) (resolving : List String)

theorem resolve_agree (h : Agree s s') (name : String) :
    resolve infer resolving s name = resolve infer resolving s' name := by
  unfold resolve
  rw [h name]

theorem objectType_agree (h : Agree s s') (n : Node) :
    objectType infer resolving s n = objectType infer resolving s' n := by
  have hmember : objectMembers infer resolving s = objectMembers infer resolving s' := by
    funext m
    unfold objectMembers
    rw [resolve_agree infer resolving h]
  unfold objectType
  rw [hmember]

theorem callType_agree (h : Agree s s') (n : Node) :
    callType infer resolving s n = callType infer resolving s' n := by
  have hnamed : namedCallType infer resolving s = namedCallType infer resolving s' := by
    funext name
    unfold namedCallType
    rw [h name, h.callable? name]
  unfold callType
  rw [hnamed]

theorem literalMember_agree (h : Agree s s') (key : String) :
    ∀ ms : List Node, literalMember infer resolving s key ms = literalMember infer resolving s' key ms
  | [] => rfl
  | m :: ms => by
    unfold literalMember
    rw [resolve_agree infer resolving h, literalMember_agree h key ms]

theorem plainMemberType_agree (h : Agree s s') (object : Node) (key : String) :
    plainMemberType infer resolving s object key = plainMemberType infer resolving s' object key := by
  unfold plainMemberType
  rw [literalMember_agree infer resolving h]

theorem nameMemberType_agree (h : Agree s s') (name : Node) (key : String) :
    nameMemberType infer resolving s name key = nameMemberType infer resolving s' name key := by
  unfold nameMemberType
  simp only [h.value? name.text, literalMember_agree infer _ h]

theorem memberType_agree (h : Agree s s') (n : Node) :
    memberType infer resolving s n = memberType infer resolving s' n := by
  unfold memberType
  simp only [nameMemberType_agree infer resolving h, plainMemberType_agree infer resolving h]

theorem typeOf_agree (h : Agree s s') (n : Node) :
    typeOf infer resolving s n = typeOf infer resolving s' n := by
  have hname : nameType infer resolving s n.text = nameType infer resolving s' n.text := by
    unfold nameType
    rw [resolve_agree infer resolving h]
  unfold typeOf
  rw [hname, objectType_agree infer resolving h, callType_agree infer resolving h,
    memberType_agree infer resolving h]

end

/-- **Scopes that agree give every expression the same type.** -/
theorem infer_agree (h : Agree s s') : ∀ limit : Nat, infer s limit = infer s' limit
  | 0 => rfl
  | limit + 1 => by
    funext resolving n
    unfold infer
    rw [infer_agree h limit, typeOf_agree _ resolving h]

theorem typeOfName_agree (h : Agree s s') (limit : Nat) (name : String) :
    s.typeOfName limit name = s'.typeOfName limit name := by
  unfold Scope.typeOfName
  rw [infer_agree h limit, resolve_agree _ [] h]

end RouteAtlas.Typing
