/-!
Conventional names for the errors that status codes report.
-/

set_option autoImplicit false

namespace ApiLowering.Name

def ofStatus (status : UInt16) : String :=
  match status with
  | 400 => "BadRequestError"
  | 401 => "UnauthorizedError"
  | 403 => "ForbiddenError"
  | 404 => "NotFoundError"
  | 405 => "MethodNotAllowedError"
  | 409 => "ConflictError"
  | 410 => "GoneError"
  | 413 => "ContentTooLargeError"
  | 415 => "UnsupportedMediaTypeError"
  | 422 => "UnprocessableEntityError"
  | 429 => "TooManyRequestsError"
  | 500 => "InternalServerError"
  | 501 => "NotImplementedError"
  | 502 => "BadGatewayError"
  | 503 => "ServiceUnavailableError"
  | 504 => "GatewayTimeoutError"
  | other => "Status" ++ toString other.toNat ++ "Error"

end ApiLowering.Name
