import OnymSdk.RoundTrip
import OnymSdk.Guards
import OnymSdk.Loader
import OnymSdk.Threads
import OnymSdk.Session
import OnymSdk.Refinement
import OnymSdk.Release.Workflow
import OnymSdk.Release.Serializable
import OnymSdk.Release.Concurrent
import OnymSdk.Release.Attach
import OnymSdk.Release.Retry
import OnymSdk.Release.Arguments
import OnymSdk.Build.Aar
import OnymSdk.TempFiles
import OnymSdk.Delivery
