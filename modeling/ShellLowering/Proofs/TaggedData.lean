import Mathlib.Data.List.Forall2
import Mathlib.Data.Option.Basic
import ShellLowering.Data

namespace ShellLowering.Data

def member? (name : String) : Data → Option Data
  | .object members => members.lookup name
  | _ => none

def text? : Data → Option String
  | .text value => some value
  | _ => none

/-- The same data. Objects are compared name by name, so the order of their members is of no
account. -/
inductive Alike : Data → Data → Prop
  | null : Alike .null .null
  | bool (value : Bool) : Alike (.bool value) (.bool value)
  | int (value : Int) : Alike (.int value) (.int value)
  | float (value : Float) : Alike (.float value) (.float value)
  | text (value : String) : Alike (.text value) (.text value)
  | array {items others : List Data} (hitems : List.Forall₂ Alike items others) :
      Alike (.array items) (.array others)
  | object {members others : List (String × Data)}
      (hmembers : ∀ name, Option.Rel Alike (members.lookup name) (others.lookup name)) :
      Alike (.object members) (.object others)

/-- Objects with distinct names, the first of which is that of their tag, arrays, texts and integers
that can be written. -/
inductive IsTagged : Data → Prop
  | int {value : Int} {text : String} (htext : Number.integerText? value = some text) :
      IsTagged (.int value)
  | text (value : String) : IsTagged (.text value)
  | array {items : List Data} (hitems : ∀ item ∈ items, IsTagged item) : IsTagged (.array items)
  | object {tag : String} {members : List (String × Data)}
      (hnames : ("type" :: members.map Prod.fst).Nodup)
      (hmembers : ∀ member ∈ members, IsTagged member.2) :
      IsTagged (.object (("type", .text tag) :: members))

namespace IsTagged

theorem exists_jsonItems? {level : Nat} {items : List Data}
    (h : ∀ item ∈ items, ∃ text, jsonAt? level item = some text) :
    ∃ texts, jsonItems? level items = some texts := by
  induction items with
  | nil => exact ⟨[], rfl⟩
  | cons item items ih =>
      obtain ⟨⟨text, htext⟩, hrest⟩ := List.forall_mem_cons.mp h
      obtain ⟨texts, htexts⟩ := ih hrest
      exact ⟨text :: texts, by simp [jsonItems?, htext, htexts]⟩

theorem exists_jsonMembers? {level : Nat} {members : List (String × Data)}
    (h : ∀ member ∈ members, ∃ text, jsonAt? level member.2 = some text) :
    ∃ texts, jsonMembers? level members = some texts := by
  induction members with
  | nil => exact ⟨[], rfl⟩
  | cons member members ih =>
      obtain ⟨name, value⟩ := member
      obtain ⟨⟨text, htext⟩, hrest⟩ := List.forall_mem_cons.mp h
      obtain ⟨texts, htexts⟩ := ih hrest
      have htext : jsonAt? level value = some text := htext
      exact ⟨.join [jsonText name, ": ", text] :: texts, by simp [jsonMembers?, htext, htexts]⟩

theorem exists_jsonAt? {data : Data} (h : data.IsTagged) (level : Nat) :
    ∃ text, jsonAt? level data = some text := by
  induction h generalizing level with
  | @int value text htext => exact ⟨text, htext⟩
  | text value => exact ⟨_, rfl⟩
  | array hitems ih =>
      obtain ⟨texts, htexts⟩ := exists_jsonItems? fun item hitem => ih item hitem (level + 1)
      exact ⟨_, by rw [jsonAt?, htexts, Option.map_some]⟩
  | @object tag members hnames hmembers ih =>
      have htag : ∃ text, jsonAt? (level + 1) (.text tag) = some text := ⟨_, rfl⟩
      have hall : ∀ member ∈ ("type", Data.text tag) :: members,
          ∃ text, jsonAt? (level + 1) member.2 = some text :=
        List.forall_mem_cons.mpr ⟨htag, fun member hmember => ih member hmember (level + 1)⟩
      obtain ⟨texts, htexts⟩ := exists_jsonMembers? hall
      exact ⟨_, by rw [jsonAt?, htexts, Option.map_some]⟩

theorem exists_json? {data : Data} (h : data.IsTagged) : ∃ text, data.json? = some text :=
  h.exists_jsonAt? 0

end IsTagged

theorem sizeOf_lt_of_lookup {name : String} {value : Data} {members : List (String × Data)}
    (h : members.lookup name = some value) : sizeOf value < sizeOf members := by
  obtain ⟨before, after, rfl, -⟩ := List.lookup_eq_some_iff.mp h
  have hmember : (name, value) ∈ before ++ (name, value) :: after := by simp
  have hsize := List.sizeOf_lt_of_mem hmember
  rw [Prod.mk.sizeOf_spec] at hsize
  omega

namespace Alike

/-- The recursion goes through the items of an array and through what the members of an object are
found to be. -/
theorem refl : ∀ data : Data, Alike data data
  | .null => .null
  | .bool value => .bool value
  | .int value => .int value
  | .float value => .float value
  | .text value => .text value
  | .array items => .array (List.forall₂_same.mpr fun item hitem =>
      have hsize : sizeOf item < sizeOf (Data.array items) := by
        have hlt := List.sizeOf_lt_of_mem hitem
        rw [array.sizeOf_spec]
        omega
      refl item)
  | .object members => .object fun name =>
      match hvalue : members.lookup name with
      | none => .none
      | some value =>
          have hsize : sizeOf value < sizeOf (Data.object members) := by
            have hlt := sizeOf_lt_of_lookup hvalue
            rw [object.sizeOf_spec]
            omega
          .some (refl value)
termination_by data => sizeOf data
decreasing_by
  all_goals exact hsize

variable {data other : Data}

theorem member (h : Alike data other) (name : String) :
    Option.Rel Alike (data.member? name) (other.member? name) := by
  cases h with
  | object hmembers => exact hmembers name
  | _ => exact .none

theorem of_member {value otherValue : Data} (h : Alike data other) (name : String)
    (hvalue : data.member? name = some value) (hother : other.member? name = some otherValue) :
    Alike value otherValue := by
  have hmember := h.member name
  rw [hvalue, hother] at hmember
  exact Option.rel_some_some.mp hmember

/-- The texts of alike data are the same, if they are texts at all. -/
theorem text?_eq (h : Alike data other) : data.text? = other.text? := by
  cases h <;> rfl

theorem text_inj {value other : String} (h : Alike (.text value) (.text other)) :
    value = other := by
  cases h
  rfl

theorem int_inj {value other : Int} (h : Alike (.int value) (.int other)) : value = other := by
  cases h
  rfl

/-- Arrays that are alike are arrays of the same things, if these differ whenever their data do. -/
theorem eq_of_array {α : Type} {f : α → Data} {items others : List α}
    (hitems : ∀ item ∈ items, ∀ other ∈ others, Alike (f item) (f other) → item = other)
    (h : Alike (.array (items.map f)) (.array (others.map f))) : items = others := by
  cases h with
  | array h =>
      rw [List.forall₂_map_left_iff, List.forall₂_map_right_iff] at h
      induction h with
      | nil => rfl
      | @cons item other items others hitem hrest ih =>
          have hhead : item = other := hitems item (by simp) other (by simp) hitem
          have htail : items = others := by
            refine ih fun item hitem other hother => hitems item ?_ other ?_
            · exact List.mem_cons_of_mem _ hitem
            · exact List.mem_cons_of_mem _ hother
          rw [hhead, htail]

end Alike
end ShellLowering.Data
