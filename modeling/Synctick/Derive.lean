import Mathlib.Data.List.Basic

/-! # The checks of the derive macros

Wire formats and fingerprints are derived for structs and enums. The derives share the check of the
tags of variants, which are explicit, and differ in the attributes that they know: a wire attribute
also gives the tag of a fingerprint, and a field can be left out of it.
-/

namespace Synctick

namespace Derive

/-- What is accepted, or the text of the compile error. -/
abbrev Checked (α : Type) := Except String α

inductive Literal
  | integer (value : Int)
  | other
  deriving DecidableEq, Repr

/-- What follows the name of an item. -/
inductive Argument
  | nothing
  | assigned (literal : Literal)
  | parenthesized
  deriving DecidableEq, Repr

structure Item where
  name : String
  argument : Argument
  deriving DecidableEq, Repr

/-- The arguments of an attribute: a list of items, or what is none, with the error of the parser. -/
inductive Arguments
  | items (items : List Item)
  | malformed (error : String)
  deriving DecidableEq, Repr

structure Attribute where
  path : String
  arguments : Arguments
  deriving DecidableEq, Repr

section Syntax

variable (τ : Type)

structure Field where
  attrs : List Attribute
  ty : τ

structure Variant where
  ident : String
  attrs : List Attribute
  fields : List (Field τ)
  discriminant : Option String := none

inductive Data
  | struct (fields : List (Field τ))
  | enum (variants : List (Variant τ))
  | union

/-- A definition to derive for, over a language of types. -/
structure DeriveInput where
  attrs : List Attribute
  data : Data τ

end Syntax

def Attribute.nested (attr : Attribute) : Checked (List Item) :=
  match attr.arguments with
  | .items items => .ok items
  | .malformed error => .error error

def rejectAttributes (names : List String) : List Attribute → Checked Unit
  | [] => .ok ()
  | attr :: attrs =>
      if attr.path ∈ names then .error "tag attributes belong on enum variants"
      else rejectAttributes names attrs

/-- The tag that the items of one attribute give, after one that was given before. -/
def parseTag (tag : Option UInt8) : List Item → Checked (Option UInt8)
  | [] => .ok tag
  | item :: items =>
      if item.name ≠ "tag" then .error "expected tag = N"
      else if tag.isSome then .error "duplicate wire tag attribute"
      else match item.argument with
        | .assigned (.integer value) =>
            if 0 ≤ value ∧ value ≤ 255 then parseTag (some (UInt8.ofNat value.toNat)) items
            else .error "wire tag out of range; expected 0..=255"
        | .assigned .other => .error "expected integer literal"
        | _ => .error "expected `=`"

/-- The tag that the attributes of a variant give, and whether one of them was seen before. -/
def parseTags (names : List String) (tag : Option UInt8) (attributeSeen : Bool) :
    List Attribute → Checked (Option UInt8)
  | [] => .ok tag
  | attr :: attrs =>
      if attr.path ∈ names then
        if attributeSeen then .error "duplicate wire tag attribute; use exactly one tag attribute"
        else do
          let items ← attr.nested
          let tag ← parseTag tag items
          parseTags names tag true attrs
      else parseTags names tag attributeSeen attrs

section Checks

variable {τ : Type}

/-- The tag of a variant; the first of the names is the one that is asked for. -/
def variantTag (variant : Variant τ) (names : List String) : Checked UInt8 :=
  let first := names.headD ""
  match variant.discriminant with
  | some _ => .error s!"use #[{first}(tag = N)] instead of Rust discriminants"
  | none => do
      let tag ← parseTags names none false variant.attrs
      match tag with
      | some tag => .ok tag
      | none => .error s!"every variant requires #[{first}(tag = N)] with a tag in 0..=255"

/-- The fields of a struct or of a variant are checked one by one. -/
def checkFields (checkField : Field τ → Checked Unit) : List (Field τ) → Checked Unit
  | [] => .ok ()
  | field :: fields => do
      checkField field
      checkFields checkField fields

/-- The tags of the variants of an enum, none of them seen before. -/
def collectTags (names : List String) (duplicate : String) (checkField : Field τ → Checked Unit)
    (seen : List UInt8) : List (Variant τ) → Checked (List UInt8)
  | [] => .ok []
  | variant :: variants => do
      let tag ← variantTag variant names
      if tag ∈ seen then .error duplicate
      else do
        checkFields checkField variant.fields
        let tags ← collectTags names duplicate checkField (tag :: seen) variants
        .ok (tag :: tags)

/-! ## Wire formats -/

def rejectWire (field : Field τ) : Checked Unit := rejectAttributes ["wire"] field.attrs

def expandEnum (variants : List (Variant τ)) : Checked (List UInt8) :=
  match variants with
  | [] => .error "Wire requires at least one enum variant"
  | _ => collectTags ["wire"] "duplicate wire tag" rejectWire [] variants

def expandStruct (fields : List (Field τ)) : Checked (List UInt8) :=
  match fields with
  | [] =>
      .error "Wire requires a nonempty struct; add a unit field to encode an explicit marker"
  | _ => .ok []

/-- Derive a wire format. The tags of the variants determine what is generated. -/
def expandWire (input : DeriveInput τ) : Checked (List UInt8) := do
  rejectAttributes ["wire"] input.attrs
  match input.data with
  | .enum variants => expandEnum variants
  | .struct fields => do
      checkFields rejectWire fields
      expandStruct fields
  | .union => .error "Wire cannot be derived for unions; implement Wire manually"

/-! ## Fingerprints -/

/-- The names of the attributes that give the tag of a fingerprint. -/
def attributes : List String := ["stable_hash", "wire"]

/-- Whether the items of one attribute skip the field. -/
def parseSkip (skip : Bool) : List Item → Checked Bool
  | [] => .ok skip
  | item :: items =>
      if item.name ≠ "skip" then .error "expected skip on a field"
      else if skip then .error "duplicate stable_hash skip attribute"
      else match item.argument with
        | .nothing => parseSkip true items
        | _ => .error "skip takes no arguments"

def parseSkips (skip : Bool) : List Attribute → Checked Unit
  | [] => .ok ()
  | attr :: attrs =>
      if attr.path ≠ "stable_hash" then parseSkips skip attrs
      else if skip then .error "duplicate stable_hash skip attribute"
      else do
        let items ← attr.nested
        let skip ← parseSkip skip items
        if skip then parseSkips skip attrs else .error "expected #[stable_hash(skip)]"

def validateField (field : Field τ) : Checked Unit := do
  rejectAttributes ["wire"] field.attrs
  parseSkips false field.attrs

/-- Only asked after validation: a hash attribute of a field can only be one that skips it. -/
def isSkipped (field : Field τ) : Bool := field.attrs.any fun attr => attr.path = "stable_hash"

/-- Validate a definition to derive fingerprints for. -/
def validate (input : DeriveInput τ) : Checked (List UInt8) := do
  rejectAttributes attributes input.attrs
  match input.data with
  | .enum variants =>
      match variants with
      | [] => .error "StableHash requires at least one enum variant"
      | _ => collectTags attributes "duplicate enum hash tag" validateField [] variants
  | .struct fields => do
      checkFields validateField fields
      .ok []
  | .union => .error "StableHash cannot be derived for unions"

end Checks

end Derive

end Synctick
