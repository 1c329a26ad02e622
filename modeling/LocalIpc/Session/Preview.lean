import LocalIpc.Text.Utf8
/-!
# Previews of a payload

The first bytes of what a client sent, as text if they are text.
-/

namespace LocalIpc.Preview

/-- How many bytes a preview shows. -/
def limit : Nat := 64

/-- The preview of a payload: its first bytes, with three dots when there are more, or its size when
those bytes are no text. -/
def ofPayload (payload : Bytes) : String :=
  match Text.decode? (payload.take limit) with
  | some text => if limit < payload.length then text ++ "..." else text
  | none => "<binary " ++ toString payload.length ++ " bytes>"

end LocalIpc.Preview
