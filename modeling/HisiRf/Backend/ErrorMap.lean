import HisiRf.Backend.Contract

/-! How driver and supplicant errors become backend errors.

The incremental backend hands these errors to the control contract unchanged,
so their class decides how an operation is said to have failed. The profile
revision that every error carries is a constant and is left out.
-/

namespace HisiRf

inductive RuntimeError where
  | notInstalled | alreadyInstalled | resourceExhausted | noTaskSlots | invalidHandle
  | invalidContext | timedOut | runtime | incompatibleContract | incompatibleExecutionProfile

def runtimeCode : RuntimeError → UInt32
  | .notInstalled => 1
  | .alreadyInstalled => 2
  | .resourceExhausted => 3
  | .noTaskSlots => 4
  | .invalidHandle => 5
  | .invalidContext => 6
  | .timedOut => 7
  | .runtime => 8
  | .incompatibleContract => 9
  | .incompatibleExecutionProfile => 10

inductive TaskAdmissionError where
  | runtime (error : RuntimeError)
  | insufficientTaskSlots (required available : Nat)
  | insufficientTaskStackMemory (required available : Nat)
  | insufficientTaskGroupSlots (owner : UInt32) (required available : Nat)
  | insufficientTaskGroupStackMemory (owner : UInt32) (required available : Nat)

def byteMax : Nat := 255
def halfMax : Nat := 65535

def taskAdmissionCode : TaskAdmissionError → UInt32
  | .runtime error => 0x10000 ||| runtimeCode error
  | .insufficientTaskSlots required available =>
    (UInt32.ofNat (min required byteMax) <<< 8) ||| UInt32.ofNat (min available byteMax)
  | .insufficientTaskStackMemory required available =>
    (0x80000000 : UInt32) ||| UInt32.ofNat (min (required / 1024) halfMax) <<< 16
      ||| UInt32.ofNat (min (available / 1024) halfMax)
  | .insufficientTaskGroupSlots owner required available =>
    (0x40000000 : UInt32) ||| min owner 255 <<< 16 ||| UInt32.ofNat (min required byteMax) <<< 8
      ||| UInt32.ofNat (min available byteMax)
  | .insufficientTaskGroupStackMemory owner required available =>
    (0xc0000000 : UInt32) ||| min owner 255 <<< 16
      ||| UInt32.ofNat (min (required / 1024) byteMax) <<< 8
      ||| UInt32.ofNat (min (available / 1024) byteMax)

inductive ScanStatus where
  | success | failed | refused | timeout
  | unknown (code : UInt32)
  deriving DecidableEq

def ScanStatus.fromRaw (raw : UInt32) : ScanStatus :=
  if raw = 0 then .success
  else if raw = 1 then .failed
  else if raw = 2 then .refused
  else if raw = 3 then .timeout
  else .unknown raw

def scanStatusCode : ScanStatus → UInt32
  | .success => 0
  | .failed => 1
  | .refused => 2
  | .timeout => 3
  | .unknown code => code

inductive Ws63Error where
  | runtime (error : RuntimeError)
  | taskAdmission (error : TaskAdmissionError)
  | alreadyInitialized
  | init (code : UInt32)
  | createStation (code : Int32)
  | registerEvents (code : Int32)
  | openStation (code : Int32)
  | supplicantPort
  | timebase (code : UInt32)
  | busy
  | invalidSsid
  | protectedNetwork
  | openNetwork
  | unsupportedSecurity (mode : Int32)
  | invalidPassphrase
  | cryptoInitialize (code : Int32)
  | crypto (code : UInt32)
  | startScan (code : Int32)
  | clearScanResults (code : UInt32)
  | scanFailed (status : ScanStatus)
  | configureSecurity (code : Int32)
  | startConnect (code : Int32)
  | startDisconnect (code : Int32)
  | connectFailed (status : UInt16)
  | disconnected (reason : UInt16)
  | timeout
  | unsupportedTarget

def ws63ErrorTrace : Ws63Error → Option (DiagnosticTraceKind × UInt32)
  | .init code | .timebase code | .crypto code | .clearScanResults code =>
    some (.vendorStatus, code)
  | .createStation code | .registerEvents code | .openStation code | .unsupportedSecurity code
  | .cryptoInitialize code | .startScan code | .configureSecurity code | .startConnect code
  | .startDisconnect code => some (.vendorStatus, code.toUInt32)
  | .scanFailed status => some (.vendorStatus, scanStatusCode status)
  | .connectFailed status => some (.ieeeStatus, status.toUInt32)
  | .disconnected reason => some (.disconnectReason, reason.toUInt32)
  | _ => none

def ws63ErrorClass : Ws63Error → BackendErrorClass × UInt32 × DiagnosticStage
  | .init code => (.init, code, .init)
  | .busy => (.busy, 1, .operation)
  | .timeout => (.operationTimeout, 1, .operation)
  | .unsupportedSecurity mode => (.unsupportedSecurity, mode.toUInt32, .connect)
  | .connectFailed status => (.connect, status.toUInt32, .associate)
  | .disconnected reason => (.connect, reason.toUInt32, .disconnect)
  | .configureSecurity code | .startConnect code => (.connect, code.toUInt32, .connect)
  | .startDisconnect code => (.connect, code.toUInt32, .disconnect)
  | .runtime error => (.other, 0x20000000 ||| runtimeCode error, .runtime)
  | .taskAdmission error => (.init, 0x21000000 ||| taskAdmissionCode error, .runtime)
  | .alreadyInitialized => (.init, 2, .init)
  | .supplicantPort => (.init, 3, .init)
  | .createStation code | .registerEvents code | .openStation code =>
    (.other, code.toUInt32, .init)
  | .startScan code => (.other, code.toUInt32, .scan)
  | .clearScanResults code => (.other, code, .scan)
  | .cryptoInitialize code => (.init, code.toUInt32, .init)
  | .timebase code => (.other, code, .runtime)
  | .crypto code => (.other, code, .connect)
  | .scanFailed status => (.other, scanStatusCode status, .scan)
  | .invalidSsid => (.other, 0x100, .scan)
  | .protectedNetwork | .openNetwork | .invalidPassphrase => (.unsupportedSecurity, 0x101, .connect)
  | .unsupportedTarget => (.other, 0xffffffff, .init)

def BackendError.traced (error : BackendError) :
    Option (DiagnosticTraceKind × UInt32) → BackendError
  | some (kind, value) => error.withTrace kind value
  | none => error

def mapError (error : Ws63Error) : BackendError :=
  let mapped := ws63ErrorClass error
  (stagedError mapped.1 mapped.2.1 mapped.2.2).traced (ws63ErrorTrace error)

/-- Errors of the native supplicant; the port's own error is not looked into. -/
inductive NativeSupplicantError where
  | port
  | invalidContextLayout
  | allocationFailed
  | createFailed
  | initializeFailed (status : Int32)
  | enableEapolFailed (status : Int32)
  | feedMgmtFailed (status : Int32)
  | beginScanCaptureFailed (status : Int32)
  | mgmtQueueOverflow (count : UInt32)
  | feedScanFailed (status : Int32)
  | scanQueueOverflow (count : UInt32)
  | feedLinkFailed (status : Int32)
  | linkQueueOverflow (count : UInt32)
  | feedExternalAuthFailed (status : Int32)
  | externalAuthQueueOverflow (count : UInt32)
  | feedEapolFailed (status : Int32)
  | configureFailed (status : Int32)
  | connectFailed (status : Int32)
  | disconnectFailed (status : Int32)
  | invalidResult
  | pollFailed (status : Int32)

def nativeErrorTrace : NativeSupplicantError → Option (DiagnosticTraceKind × UInt32)
  | .initializeFailed status | .enableEapolFailed status | .feedMgmtFailed status
  | .beginScanCaptureFailed status | .feedScanFailed status | .feedLinkFailed status
  | .feedExternalAuthFailed status | .feedEapolFailed status | .configureFailed status
  | .connectFailed status | .disconnectFailed status | .pollFailed status =>
    some (.hostapStatus, status.toUInt32)
  | .mgmtQueueOverflow count | .scanQueueOverflow count | .linkQueueOverflow count
  | .externalAuthQueueOverflow count => some (.backendStatus, count)
  | .port | .invalidContextLayout | .allocationFailed | .createFailed | .invalidResult => none

def statusCode (base : UInt32) (status : Int32) : UInt32 := base ||| (status.toUInt32 &&& 0xfff)

def countCode (base count : UInt32) : UInt32 := base ||| min count 0xfff

def nativeErrorClass : NativeSupplicantError → BackendErrorClass × UInt32 × DiagnosticStage
  | .port => (.init, 1, .init)
  | .invalidContextLayout => (.init, 2, .init)
  | .allocationFailed => (.init, 3, .init)
  | .createFailed => (.init, 4, .init)
  | .initializeFailed status => (.init, statusCode 0x1000 status, .init)
  | .enableEapolFailed status => (.init, statusCode 0x2000 status, .eapol)
  | .feedMgmtFailed status => (.other, statusCode 0x3000 status, .authenticate)
  | .feedEapolFailed status => (.other, statusCode 0x4000 status, .eapol)
  | .mgmtQueueOverflow count => (.other, countCode 0x6000 count, .authenticate)
  -- the only status with eight bits kept
  | .beginScanCaptureFailed status => (.other, 0x6800 ||| (status.toUInt32 &&& 0xff), .scan)
  | .feedScanFailed status => (.other, statusCode 0x7000 status, .scan)
  | .scanQueueOverflow count => (.other, countCode 0x8000 count, .scan)
  | .feedLinkFailed status => (.connect, statusCode 0x9000 status, .associate)
  | .linkQueueOverflow count => (.connect, countCode 0xa000 count, .associate)
  | .feedExternalAuthFailed status => (.connect, statusCode 0xe000 status, .sae)
  | .externalAuthQueueOverflow count => (.connect, countCode 0xf000 count, .sae)
  | .configureFailed status => (.connect, statusCode 0xb000 status, .connect)
  | .connectFailed status => (.connect, statusCode 0xc000 status, .associate)
  | .disconnectFailed status => (.connect, statusCode 0xd000 status, .disconnect)
  | .invalidResult => (.other, 5, .backend)
  | .pollFailed status => (.other, statusCode 0x5000 status, .runtime)

def mapNativeError (error : NativeSupplicantError) : BackendError :=
  let mapped := nativeErrorClass error
  (stagedError mapped.1 (0x57320000 ||| mapped.2.1) mapped.2.2).traced (nativeErrorTrace error)

@[simp] theorem traced_errorClass (error : BackendError)
    (trace : Option (DiagnosticTraceKind × UInt32)) :
    (error.traced trace).errorClass = error.errorClass := by
  cases trace <;> rfl

/-- A driver error is reported as an operation timeout exactly when it is the driver's own. -/
theorem mapError_timeout_iff (error : Ws63Error) :
    (mapError error).errorClass = .operationTimeout ↔ error = .timeout := by
  have mapped : (mapError error).errorClass = (ws63ErrorClass error).1 := traced_errorClass _ _
  rw [mapped]
  cases error <;> simp [ws63ErrorClass]

theorem mapNativeError_not_timeout (error : NativeSupplicantError) :
    (mapNativeError error).errorClass ≠ .operationTimeout := by
  have mapped : (mapNativeError error).errorClass = (nativeErrorClass error).1 :=
    traced_errorClass _ _
  rw [mapped]
  cases error <;> simp [nativeErrorClass]

end HisiRf
