/-
  RouteAtlas: writing JSON texts.

  * `Shows cs ts`: characters spell tokens, whatever follows them;
  * `character_escaped`: a character is spelled as it is written;
  * `shows_write`: at every level a value is spelled as it is written;
  * `read_render`: what is written is read, also with white space behind it.
-/
import RouteAtlas.Proofs.Json.Reading
import RouteAtlas.Proofs.Text.Blank

namespace RouteAtlas.Json

open RouteAtlas.Text

/-! ## Parts of a text -/

/-- Characters spell tokens, whatever follows them. -/
def Shows (cs : List Char) (ts : List Token) : Prop :=
  ∀ rest more, Spells rest more → Spells (cs ++ rest) (ts ++ more)

variable {cs ds : List Char} {ts us : List Token}

theorem Shows.append (h : Shows cs ts) (h' : Shows ds us) : Shows (cs ++ ds) (ts ++ us) := by
  intro rest more hrest
  rw [List.append_assoc, List.append_assoc]
  exact h _ _ (h' rest more hrest)

theorem Shows.flatMap {α : Type} {shown : α → List Char} {spelled : α → List Token} :
    ∀ {parts : List α}, (∀ part ∈ parts, Shows (shown part) (spelled part)) →
      Shows (parts.flatMap shown) (parts.flatMap spelled)
  | [], _ => fun _ _ hrest => hrest
  | _ :: _, h => by
    obtain ⟨hpart, hparts⟩ := List.forall_mem_cons.1 h
    exact hpart.append (Shows.flatMap hparts)

theorem shows_mark {c : Char} {token : Token} (h : mark? c = some token) : Shows [c] [token] :=
  fun _ _ hrest => .mark h hrest

theorem shows_spaces : ∀ {cs : List Char}, (∀ c ∈ cs, isSpace c = true) → Shows cs []
  | [], _ => fun _ _ hrest => hrest
  | _ :: _, h => by
    obtain ⟨hfirst, hrest⟩ := List.forall_mem_cons.1 h
    exact fun rest more hmore => .space hfirst (shows_spaces hrest rest more hmore)

theorem shows_newLine (level : Nat) : Shows (newLine level) [] := by
  refine shows_spaces fun c hc => ?_
  obtain rfl | hc := List.mem_cons.1 hc
  · rfl
  · rw [List.eq_of_mem_replicate hc]
    rfl

/-! ## Texts -/

theorem hexValue?_hexDigit : ∀ n < 16, hexValue? (hexDigit n) = some n := by decide

/-- **A character is spelled as it is written.** -/
theorem character_escaped (c : Char) (rest : List Char) : Character (escaped c ++ rest) c rest := by
  unfold escaped
  split
  case h_8 hquote hback _ _ _ _ _ =>
    split
    · rename_i hcontrol
      have hunit : unit? ('0' :: '0' :: hexDigit (c.toNat / 16) :: hexDigit (c.toNat % 16) :: rest) =
          some (c.toNat, rest) := by
        have hzero : hexValue? '0' = some 0 := rfl
        simp only [unit?, hzero, hexValue?_hexDigit _ (show c.toNat / 16 < 16 by omega),
          hexValue?_hexDigit _ (Nat.mod_lt c.toNat (by decide : 16 > 0)), Option.bind_eq_bind,
          Option.bind_some, Option.pure_def, Option.some.injEq, Prod.mk.injEq, and_true]
        omega
      have hspelled := Character.unit hunit (Or.inl (by omega))
      rwa [Char.ofNat_toNat] at hspelled
    · rename_i hcontrol
      exact .plain hquote hback (by omega)
  all_goals exact .short rfl

theorem quoted_escaped (rest : List Char) : ∀ value : List Char,
    Quoted (value.flatMap escaped ++ '"' :: rest) value rest
  | [] => .close
  | c :: value => by
    rw [List.flatMap_cons, List.append_assoc]
    exact .more (character_escaped c _) (quoted_escaped rest value)

theorem shows_encoded (value : String) : Shows (encoded value) [.text value] := by
  intro rest more hrest
  have htext := Spells.text (quoted_escaped rest value.toList) hrest
  rw [String.ofList_toList] at htext
  simpa [encoded] using htext

/-! ## Values -/

theorem writeItems_eq_map (level : Nat) : ∀ items : List Json,
    writeItems level items = items.map (write level)
  | [] => rfl
  | item :: rest => congrArg (write level item :: ·) (writeItems_eq_map level rest)

theorem writeMembers_eq_map (level : Nat) : ∀ members : List (String × Json),
    writeMembers level members =
      members.map fun member => encoded member.1 ++ [':', ' '] ++ write level member.2
  | [] => rfl
  | (_, _) :: rest => congrArg (_ :: ·) (writeMembers_eq_map level rest)

/-- Parts between marks are spelled as they are laid out, if each of them is. -/
theorem shows_enclosed {α : Type} {opening closing : Char} {first last : Token} {shown : α → List Char}
    {spelled : α → List Token} (hopening : mark? opening = some first) (hclosing : mark? closing = some last)
    (level : Nat) : ∀ {parts : List α}, (∀ part ∈ parts, Shows (shown part) (spelled part)) →
      Shows (enclosed opening closing level (parts.map shown)) (bracketed first last (parts.map spelled))
  | [], _ => (shows_mark hopening).append (shows_mark hclosing)
  | part :: parts, h => by
    obtain ⟨hpart, hparts⟩ := List.forall_mem_cons.1 h
    have hcomma : Shows (',' :: newLine (level + 1)) [.comma] :=
      (shows_mark rfl : Shows [','] [.comma]).append (shows_newLine (level + 1))
    have hmore : Shows (parts.flatMap fun part => ',' :: newLine (level + 1) ++ shown part)
        (parts.flatMap fun part => .comma :: spelled part) :=
      Shows.flatMap fun part hmem => hcomma.append (hparts part hmem)
    have hall := (((((shows_mark hopening).append (shows_newLine (level + 1))).append
      (hpart.append hmore)).append (shows_newLine level)).append (shows_mark hclosing))
    simpa [enclosed, bracketed, joinChars_cons, List.flatMap_map] using hall

/-- **At every level a value is spelled as it is written.** -/
theorem shows_write (value : Json) : ∀ level, Shows (write level value) value.tokens := by
  induction value with
  | text value => exact fun _ => shows_encoded value
  | list items ih =>
    intro level
    rw [tokens_list, write, writeItems_eq_map]
    exact shows_enclosed rfl rfl level fun item hitem => ih item hitem (level + 1)
  | object members ih =>
    intro level
    rw [tokens_object, write, writeMembers_eq_map]
    refine shows_enclosed rfl rfl level fun member hmember => ?_
    have hspace : Shows [' '] [] := shows_spaces (List.forall_mem_singleton.2 rfl)
    have hcolon : Shows [':', ' '] [.colon] := (shows_mark rfl : Shows [':'] [.colon]).append hspace
    exact ((shows_encoded member.1).append hcolon).append (ih member hmember (level + 1))

/-- What is written denotes the value, also with white space behind it. -/
theorem denotes_render (value : Json) {space : String} (h : ∀ c ∈ space.toList, isSpace c = true) :
    Denotes (value.render ++ space) value := by
  have hall := ((shows_write value 0).append (shows_spaces h)) [] [] .nil
  simpa [Denotes, render] using hall

/-- **What is written is read**, also with white space behind it. -/
theorem read_render (value : Json) {space : String} (h : ∀ c ∈ space.toList, isSpace c = true) :
    read (value.render ++ space) = some value :=
  read_eq_some_iff.2 (denotes_render value h)

end RouteAtlas.Json
