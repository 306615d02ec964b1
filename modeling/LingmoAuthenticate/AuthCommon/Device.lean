import LingmoAuthenticate.AuthCommon.AuthType

/-!
# What the devices report: `face.go`, `iris.go` and `ukey.go`

The codes of a camera while it verifies, and the states of a key. A code that the source has no
name for is `other`, so that its `default` branches keep their meaning.

* `FaceVerifyStatus.ofCode_eq_success`, `IrisVerifyStatus.ofCode_eq_success`: the zero code, and no
  other, is a success of the camera.
-/

namespace LingmoAuthenticate.AuthCommon

/-- Source: `authcommon/face.go`, `FaceVerifyStatus`. -/
inductive FaceVerifyStatus where
  | success
  | notRealHuman
  | faceNotCenter
  | faceTooBig
  | faceTooSmall
  | noFace
  | tooManyFace
  | faceNotClear
  | brightness
  | faceCovered
  | cancel
  | error
  | exception
  | disconnected
  | senderDisconnected
  | other (code : ℤ)
  deriving DecidableEq, Repr

namespace FaceVerifyStatus

/-- The codes in order. Source: `authcommon/face.go`, the constants. -/
def ofCode (code : ℤ) : FaceVerifyStatus :=
  match code with
  | 0 => .success
  | 1 => .notRealHuman
  | 2 => .faceNotCenter
  | 3 => .faceTooBig
  | 4 => .faceTooSmall
  | 5 => .noFace
  | 6 => .tooManyFace
  | 7 => .faceNotClear
  | 8 => .brightness
  | 9 => .faceCovered
  | 10 => .cancel
  | 11 => .error
  | 12 => .exception
  | 13 => .disconnected
  | 14 => .senderDisconnected
  | code => .other code

/-- Source: `authcommon/face.go`, `FaceVerifyStatus.IsEndedStatus`. -/
def isEndedStatus : FaceVerifyStatus → Bool
  | .success | .disconnected | .senderDisconnected | .exception => true
  | _ => false

/-- Source: `authcommon/face.go`, `FaceVerifyStatus.IsContinue`. -/
def isContinue : FaceVerifyStatus → Bool
  | .error | .notRealHuman => true
  | _ => false

/-- Source: `authcommon/face.go`, `FaceVerifyStatus.String`. -/
def text : FaceVerifyStatus → String
  | .success => "Verification successful"
  | .notRealHuman => "Position your face please"
  | .faceNotCenter => "Position your face inside the frame"
  | .faceTooBig => "Keep away from the camera"
  | .faceTooSmall => "Get closer to the camera"
  | .noFace => "Face not found"
  | .tooManyFace => "Do not position multiple faces inside the frame"
  | .faceNotClear => "Make sure the camera lens is clean"
  | .brightness => "Do not enroll in dark, bright or backlit environments"
  | .faceCovered => "Keep your face uncovered"
  | _ => "Unknown error"

end FaceVerifyStatus

/-- Source: `authcommon/iris.go`, `IrisVerifyStatus`. -/
inductive IrisVerifyStatus where
  | success
  | tooBig
  | tooSmall
  | noFace
  | notClear
  | brightness
  | eyesClose
  | cancel
  | error
  | disconnected
  | senderDisconnected
  | other (code : ℤ)
  deriving DecidableEq, Repr

namespace IrisVerifyStatus

/-- The codes in order. Source: `authcommon/iris.go`, the constants. -/
def ofCode (code : ℤ) : IrisVerifyStatus :=
  match code with
  | 0 => .success
  | 1 => .tooBig
  | 2 => .tooSmall
  | 3 => .noFace
  | 4 => .notClear
  | 5 => .brightness
  | 6 => .eyesClose
  | 7 => .cancel
  | 8 => .error
  | 9 => .disconnected
  | 10 => .senderDisconnected
  | code => .other code

/-- Source: `authcommon/iris.go`, `IrisVerifyStatus.IsEndedStatus`. -/
def isEndedStatus : IrisVerifyStatus → Bool
  | .success | .disconnected | .senderDisconnected => true
  | _ => false

/-- Source: `authcommon/iris.go`, `IrisVerifyStatus.IsContinue`. -/
def isContinue : IrisVerifyStatus → Bool
  | .error => true
  | _ => false

/-- Source: `authcommon/iris.go`, `IrisVerifyStatus.String`. -/
def text : IrisVerifyStatus → String
  | .success => "Verification successful"
  | .tooBig => "Keep away from the camera"
  | .tooSmall => "Get closer to the camera"
  | .noFace => "Iris not found"
  | .notClear => "Make sure the camera lens is clean"
  | .brightness => "Do not enroll in dark, bright or backlit environments"
  | .eyesClose => "Keep your eyes wide open"
  | _ => "Unknown error"

end IrisVerifyStatus

/-- Source: `authcommon/ukey.go`, `UKeyState`. -/
inductive UKeyState where
  | deviceException
  | deviceOk
  | deviceVerifying
  | deviceNotExist
  | other (state : ℤ)
  deriving DecidableEq, Repr

/-- Source: `authcommon/ukey.go`, `UKeyState.String`. -/
def UKeyState.text : UKeyState → String
  | .deviceException => "Device abnormal"
  | .deviceOk => "Enter your PIN: "
  | .deviceVerifying => "Verifying..."
  | .deviceNotExist => "UKey is required"
  | .other _ => "Unknown UKey state"

/-- Zero is the code of a success, and no other code is. -/
theorem FaceVerifyStatus.ofCode_eq_success {code : ℤ} :
    FaceVerifyStatus.ofCode code = .success ↔ code = 0 := by
  unfold FaceVerifyStatus.ofCode
  split <;> simp_all

/-- Zero is the code of a success, and no other code is. -/
theorem IrisVerifyStatus.ofCode_eq_success {code : ℤ} :
    IrisVerifyStatus.ofCode code = .success ↔ code = 0 := by
  unfold IrisVerifyStatus.ofCode
  split <;> simp_all

end LingmoAuthenticate.AuthCommon
