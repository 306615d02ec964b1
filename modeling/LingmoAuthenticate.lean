import LingmoAuthenticate.Lib.GoMap
import LingmoAuthenticate.Lib.Machine
import LingmoAuthenticate.Lib.Clock
import LingmoAuthenticate.Lib.Chan
import LingmoAuthenticate.Lib.Rendezvous
import LingmoAuthenticate.Lib.Episodes
import LingmoAuthenticate.AuthCommon.AuthType
import LingmoAuthenticate.AuthCommon.Device
import LingmoAuthenticate.Limits.Limit
import LingmoAuthenticate.Limits.ClockWrap
import LingmoAuthenticate.Limits.Persist
import LingmoAuthenticate.Limits.Restart
import LingmoAuthenticate.Limits.Snapshot
import LingmoAuthenticate.Limits.Table
import LingmoAuthenticate.Limits.Allowed
import LingmoAuthenticate.Limits.UserList
import LingmoAuthenticate.Limits.Window
import LingmoAuthenticate.Limits.Asking
import LingmoAuthenticate.Limits.Complete
import LingmoAuthenticate.Limits.Accepted
import LingmoAuthenticate.Limits.Message
import LingmoAuthenticate.MultiFactor.Config
import LingmoAuthenticate.MultiFactor.Directory
import LingmoAuthenticate.MultiFactor.Select
import LingmoAuthenticate.Session.Status
import LingmoAuthenticate.Session.MultiFactorVerify
import LingmoAuthenticate.Session.NormalVerify
import LingmoAuthenticate.Session.Notification
import LingmoAuthenticate.Session.Tx
import LingmoAuthenticate.Session.Transactions
import LingmoAuthenticate.Session.LockState
import LingmoAuthenticate.Session.Session
import LingmoAuthenticate.Session.FailCount
import LingmoAuthenticate.Session.GetResult
import LingmoAuthenticate.Session.ResultCh
import LingmoAuthenticate.Session.InitData
import LingmoAuthenticate.Session.FirstStart
import LingmoAuthenticate.Session.Success
import LingmoAuthenticate.Session.EndTx
import LingmoAuthenticate.Session.Timeout
import LingmoAuthenticate.Session.CameraVerify
import LingmoAuthenticate.Session.PasswordSteps
import LingmoAuthenticate.Session.FingerprintSteps
import LingmoAuthenticate.Session.CustomSteps
import LingmoAuthenticate.Session.Simulation
import LingmoAuthenticate.Session.PasswordSimulation
import LingmoAuthenticate.Session.FingerprintSimulation
import LingmoAuthenticate.Session.CameraSimulation
import LingmoAuthenticate.Session.CustomSimulation
import LingmoAuthenticate.Session.Attempts
import LingmoAuthenticate.Session.PasswordMoves
import LingmoAuthenticate.Session.CustomMoves
import LingmoAuthenticate.Session.FingerprintMoves
import LingmoAuthenticate.Session.CameraMoves
import LingmoAuthenticate.Session.UKeySteps
import LingmoAuthenticate.Session.UKeyMoves
import LingmoAuthenticate.Session.EndedAttempt
import LingmoAuthenticate.Session.Telling
import LingmoAuthenticate.Session.Outcome
import LingmoAuthenticate.Session.Slots
import LingmoAuthenticate.Session.TTYChanged
import LingmoAuthenticate.UKey.Manager
import LingmoAuthenticate.Session.UKeyVerify
import LingmoAuthenticate.Session.EndAll
import LingmoAuthenticate.Authenticate.Service
import LingmoAuthenticate.Authenticate.Lockout
import LingmoAuthenticate.Authenticate.Privileges
import LingmoAuthenticate.Task.Manager
import LingmoAuthenticate.Lib.Cbc
import LingmoAuthenticate.Encrypt.Aes
import LingmoAuthenticate.Session.Crypto
import LingmoAuthenticate.Lib.Path
import LingmoAuthenticate.Fingerprint.HuaweiDevice
import LingmoAuthenticate.AuthCommon.Interfaces
import LingmoAuthenticate.UKey.Services
import LingmoAuthenticate.Face.Manager
import LingmoAuthenticate.UKey.Single
import LingmoAuthenticate.Fingerprint.Claim
import LingmoAuthenticate.Chara.Records
import LingmoAuthenticate.Chara.Enroll
import LingmoAuthenticate.Lib.Locking
import LingmoAuthenticate.Chara.Locks
import LingmoAuthenticate.Lib.Wedge
import LingmoAuthenticate.Chara.Signals
import LingmoAuthenticate.ShmComm.Lock
import LingmoAuthenticate.Lib.Stream
import LingmoAuthenticate.Lib.Text
import LingmoAuthenticate.ShmComm.Frames
import LingmoAuthenticate.PamModule.FinalResult
import LingmoAuthenticate.Session.StartCount
import LingmoAuthenticate.Chara.Rename
import LingmoAuthenticate.Chara.TypeChange
import LingmoAuthenticate.Chara.Manager
import LingmoAuthenticate.UKey.DefaultDevice
import LingmoAuthenticate.UKey.SessionPath
import LingmoAuthenticate.UKey.Notify
import LingmoAuthenticate.Face.Start
import LingmoAuthenticate.Face.NameLost
import LingmoAuthenticate.Lib.Cells
import LingmoAuthenticate.PamModule.ResolveFactors
import LingmoAuthenticate.Lib.GoSlice
import LingmoAuthenticate.AppType.Tool
import LingmoAuthenticate.Lib.JsonC
import LingmoAuthenticate.PamModule.LimitsInfo
import LingmoAuthenticate.AuthClient.Limits
import LingmoAuthenticate.ShmComm.Image
import LingmoAuthenticate.Fingerprint.FingerNames
import LingmoAuthenticate.Fingerprint.FprintdDevice
import LingmoAuthenticate.Fingerprint.Enroll
import LingmoAuthenticate.Fingerprint.Reload
import LingmoAuthenticate.Fingerprint.Listing
import LingmoAuthenticate.Lib.Throttle
import LingmoAuthenticate.Limits.Isolation
import LingmoAuthenticate.Limits.Throttled
import LingmoAuthenticate.Session.Chargeable
import LingmoAuthenticate.Authenticate.FailureRate
import LingmoAuthenticate.Lib.Past
import LingmoAuthenticate.PamModule.Genuine
import LingmoAuthenticate.Authenticate.Sessions
import LingmoAuthenticate.System.ServedLogin
import LingmoAuthenticate.System.FactorsInOrder
import LingmoAuthenticate.Lib.Calendar
import LingmoAuthenticate.Lib.JsonText
import LingmoAuthenticate.PamModule.LimitPrompt
import LingmoAuthenticate.System.LimitsShown
import LingmoAuthenticate.AuthClient.FailPrompt
import LingmoAuthenticate.System.ChancesLeft
import LingmoAuthenticate.Lib.CString
import LingmoAuthenticate.PamModule.Arguments
import LingmoAuthenticate.PamModule.UserLocale
import LingmoAuthenticate.System.TokenChannel
