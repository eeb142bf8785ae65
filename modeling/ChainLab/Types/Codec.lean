import ChainLab.Lib.JsonCodec
import ChainLab.Types.Validator

/-! The encodings of the state's records can be read back. -/

namespace ChainLab.Types

open ChainLab.Lib

section Fields

variable {α : Type} (name : String)

theorem textPart (part : α → String) :
    Part name (fun a => jsonOmitEmpty (decide (part a = "")) name (jsonString (part a))) part :=
  .omitEmpty readable_jsonString name part "" (fun b => decide (b = "")) fun _ h => of_decide_eq_true h

theorem uintPart (part : α → UInt64) :
    Part name (fun a => jsonOmitEmpty (decide (part a = 0)) name (jsonUint (part a))) part :=
  .omitEmpty readable_jsonUint name part 0 (fun b => decide (b = 0)) fun _ h => of_decide_eq_true h

theorem mapPart {ν : Type} [Inhabited ν] {encode : ν → JsonText} (h : Readable encode) (part : α → GoMap String ν) :
    Part name (fun a => jsonOmitEmpty (decide (GoMap.len (part a) = 0)) name (jsonMap encode (part a))) part :=
  .omitEmpty (readable_jsonMap h) name part ∅ (fun m => decide (GoMap.len m = 0)) fun _ hm =>
    GoMap.len_eq_zero.mp (of_decide_eq_true hm)

end Fields

end ChainLab.Types
