import FlotillaDaemon.ModuleReconnect
import FlotillaDaemon.ModuleDirections
import FlotillaDaemon.DockTable
import FlotillaDaemon.Messages
import FlotillaDaemon.TickAlone
import FlotillaDaemon.DockRaces
import FlotillaDaemon.FrontRace
import FlotillaDaemon.EventStream
import FlotillaDaemon.UpdatePass
import FlotillaDaemon.JoiningClient
import FlotillaDaemon.DockSession
import FlotillaDaemon.Delivery
import FlotillaDaemon.UpdateRouting
import FlotillaDaemon.ClientIndependence
import FlotillaDaemon.ValueDelivery
import FlotillaDaemon.ValueStreams
import FlotillaDaemon.DataLines
import FlotillaDaemon.MalformedMessages
import FlotillaDaemon.Introduction
import FlotillaDaemon.FreshReadings
import FlotillaDaemon.FinalUpdate
import FlotillaDaemon.DockScans
import FlotillaDaemon.LineTiming
import FlotillaDaemon.DockIdentity
import FlotillaDaemon.Shutdown
import FlotillaDaemon.ClientCopies
import FlotillaDaemon.Greeting
import FlotillaDaemon.DockIsolation
import FlotillaDaemon.CleanupSteps
import FlotillaDaemon.Discovery
import FlotillaDaemon.Attachment
import FlotillaDaemon.Rounds
import FlotillaDaemon.Survival
import FlotillaDaemon.SerialRuns
import FlotillaDaemon.MainRuns
