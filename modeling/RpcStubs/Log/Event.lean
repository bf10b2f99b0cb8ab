import RpcStubs.Failure
import RpcStubs.Log.Level
import RpcStubs.Text.Hex

namespace RpcStubs

structure Event where
  level : LogLevel
  target : String
  message : String
  fields : List (String × String)
  deriving Repr, DecidableEq

namespace Event

def fieldNames (e : Event) : List String := "message" :: e.fields.map (·.1)

/-- Controls that could start a terminal's escape sequences are written as escapes. -/
def defuse (c : Char) : List Char :=
  if ['\x07', '\x08', '\x0c', '\x1b', '\x7f'].contains c then
    '\\' :: 'x' :: Text.hexByte c.toNat.toUInt8
  else if 0x80 ≤ c.toNat ∧ c.toNat ≤ 0x9f then Text.codePointEscape c
  else [c]

def messageText (e : Event) : String := String.ofList (e.message.toList.flatMap defuse)

def renderField (field : String × String) : String := " " ++ field.1 ++ "=" ++ field.2

/-- One line: the level right-aligned to five characters, the target, the message, the fields. -/
def render (e : Event) : String :=
  String.ofList (List.replicate (5 - e.level.name.length) ' ') ++ e.level.name ++ " " ++
    e.target ++ ": " ++ e.messageText ++ String.join (e.fields.map renderField) ++ "\n"

end Event

structure Traced (α : Type) where
  events : List Event
  result : Build α

namespace Traced

variable {α β : Type}

def pure (a : α) : Traced α := ⟨[], .ok a⟩

def bind (x : Traced α) (f : α → Traced β) : Traced β :=
  match x.result with
  | .ok a =>
    let y := f a
    ⟨x.events ++ y.events, y.result⟩
  | .error failure => ⟨x.events, .error failure⟩

instance : Monad Traced where
  pure := pure
  bind := bind

instance : MonadLift Build Traced := ⟨fun x ↦ ⟨[], x⟩⟩

def emit (e : Event) : Traced Unit := ⟨[e], .ok ()⟩

@[simp] theorem result_pure (a : α) : (Pure.pure a : Traced α).result = .ok a := rfl

@[simp] theorem result_bind (x : Traced α) (f : α → Traced β) :
    (x >>= f).result = x.result.bind fun a ↦ (f a).result := by
  rcases x with ⟨events, a | a⟩ <;> rfl

theorem bind_bind {γ : Type} (x : Traced α) (f : α → Traced β) (g : β → Traced γ) :
    bind (bind x f) g = bind x fun a ↦ bind (f a) g := by
  obtain ⟨events, result⟩ := x
  cases result with
  | error failure => rfl
  | ok a =>
    show bind ⟨events ++ (f a).events, (f a).result⟩ g = _
    cases h : (f a).result with
    | error failure => simp [bind, h]
    | ok b => simp [bind, h]

theorem bind_pure_self (x : Traced α) : bind x pure = x := by
  obtain ⟨events, result⟩ := x
  cases result with
  | error failure => rfl
  | ok a => simp [bind, pure]

instance : LawfulMonad Traced :=
  LawfulMonad.mk' Traced bind_pure_self (fun _ _ ↦ rfl) bind_bind

@[simp] theorem result_monadLift (x : Build α) : (monadLift x : Traced α).result = x := rfl

end Traced

end RpcStubs
